import Mathlib.Algebra.Group.Int.Defs
import Mathlib.Data.Bool.AllAny
import Mathlib.Data.List.TakeWhile
import Mathlib.Tactic.Common

/-! The words of a text, and decimal numbers in it. -/

namespace Text

section Words

/-- The parts of a text between separators, without the empty ones. -/
def words (sep : Char → Bool) (text : List Char) : List (List Char) :=
  (text.splitOnP sep).filter fun part => !part.isEmpty

structure IsWord (sep : Char → Bool) (word : List Char) : Prop where
  filled : word ≠ []
  clean : ∀ c ∈ word, sep c = false

variable {sep : Char → Bool}

@[simp] theorem words_nil (sep : Char → Bool) : words sep [] = [] := rfl

theorem ne_nil_of_mem_words {word text : List Char} (member : word ∈ words sep text) :
    word ≠ [] := by
  have kept := (List.mem_filter.mp member).2
  rintro rfl
  cases kept

/-- The first part of a text is a beginning of it, and all its parts lie in it. -/
theorem splitOnP_parts (sep : Char → Bool) (text : List Char) :
    ∃ first parts, text.splitOnP sep = first :: parts ∧ first <+: text ∧
      ∀ part ∈ parts, part <:+: text := by
  induction text with
  | nil => exact ⟨[], [], List.splitOnP_nil, List.prefix_rfl, fun part member => (nomatch member)⟩
  | cons c text ih =>
      obtain ⟨first, parts, shape, begins, inside⟩ := ih
      have later : ∀ part ∈ parts, part <:+: c :: text := fun part member =>
        List.infix_cons (inside part member)
      rw [List.splitOnP_cons_eq_if_modifyHead, shape]
      split
      · refine ⟨[], first :: parts, rfl, List.nil_prefix, ?_⟩
        exact List.forall_mem_cons.mpr ⟨List.infix_cons begins.isInfix, later⟩
      · exact ⟨c :: first, parts, rfl, List.prefix_cons_inj c |>.mpr begins, later⟩

theorem length_splitOnP (sep : Char → Bool) (text : List Char) :
    (text.splitOnP sep).length = text.countP sep + 1 := by
  induction text with
  | nil => rw [List.splitOnP_nil, List.countP_nil, List.length_singleton]
  | cons c text ih =>
      rw [List.splitOnP_cons_eq_if_modifyHead, List.countP_cons]
      split
      · rw [List.length_cons, ih]
      · rw [List.length_modifyHead, ih]

/-- A text has as many words as parts when none of the parts is empty. -/
theorem length_words_eq_iff {text : List Char} :
    (words sep text).length = text.countP sep + 1 ↔ [] ∉ text.splitOnP sep := by
  rw [words, ← length_splitOnP, List.length_filter_eq_length_iff]
  constructor
  · intro all empty
    exact absurd (all [] empty) (by decide)
  · intro filled part member
    cases part with
    | nil => exact absurd member filled
    | cons c part => rfl

theorem infix_of_mem_words {word text : List Char} (member : word ∈ words sep text) :
    word <:+: text := by
  obtain ⟨first, parts, shape, begins, inside⟩ := splitOnP_parts sep text
  have part := (List.mem_filter.mp member).1
  rw [shape] at part
  rcases List.mem_cons.mp part with rfl | later
  · exact begins.isInfix
  · exact inside word later

theorem words_append_cons {c : Char} (separates : sep c = true) (front back : List Char) :
    words sep (front ++ c :: back) = words sep front ++ words sep back := by
  rw [words, List.splitOnP_append_cons front back separates, List.filter_append]
  rfl

theorem words_word {word : List Char} (isWord : IsWord sep word) : words sep word = [word] := by
  rw [words, List.splitOnP_eq_singleton isWord.clean, List.filter_cons_of_pos, List.filter_nil]
  simpa using isWord.filled

theorem words_cons {word : List Char} {c : Char} (isWord : IsWord sep word)
    (separates : sep c = true) (text : List Char) :
    words sep (word ++ c :: text) = word :: words sep text := by
  rw [words_append_cons separates, words_word isWord]
  rfl

theorem words_intercalate_flatMap {c : Char} (separates : sep c = true)
    (parts : List (List Char)) :
    words sep ([c].intercalate parts) = parts.flatMap (words sep) := by
  induction parts with
  | nil => rfl
  | cons part parts ih =>
      cases parts with
      | nil => rw [List.intercalate_singleton, List.flatMap_singleton]
      | cons next parts =>
          rw [List.intercalate_cons_cons, List.append_assoc, List.singleton_append,
            words_append_cons separates, ih]
          rfl

theorem flatMap_words {parts : List (List Char)} (all : ∀ part ∈ parts, IsWord sep part) :
    parts.flatMap (words sep) = parts := by
  induction parts with
  | nil => rfl
  | cons part parts ih =>
      rw [List.forall_mem_cons] at all
      rw [List.flatMap_cons, words_word all.1, ih all.2, List.singleton_append]

theorem words_intercalate {c : Char} (separates : sep c = true) {parts : List (List Char)}
    (all : ∀ part ∈ parts, IsWord sep part) : words sep ([c].intercalate parts) = parts := by
  rw [words_intercalate_flatMap separates, flatMap_words all]

end Words

section Numbers

/-- `%d`. -/
def decimal : Int → List Char
  | .ofNat n => Nat.toDigits 10 n
  | .negSucc n => '-' :: Nat.toDigits 10 (n + 1)

def parseNat (text : List Char) : Option Nat :=
  if text ≠ [] ∧ text.all Char.isDigit = true then some (Nat.ofDigitChars 10 text 0) else none

/-- `int(text)`. -/
def parseInt : List Char → Option Int
  | '-' :: digits => (parseNat digits).map fun n => -(n : Int)
  | '+' :: digits => (parseNat digits).map fun n => (n : Int)
  | digits => (parseNat digits).map fun n => (n : Int)

/-- The number a text begins with. -/
def leadingNat (text : List Char) : Nat :=
  Nat.ofDigitChars 10 (text.takeWhile Char.isDigit) 0

/-- `isspace` of the C library. -/
def isSpace (c : Char) : Bool := c == ' ' || (decide (9 ≤ c.toNat) && decide (c.toNat ≤ 13))

/-- `str.isspace` of Python. -/
def isPySpace (c : Char) : Bool :=
  let n := c.toNat
  (decide (9 ≤ n) && decide (n ≤ 13)) || (decide (28 ≤ n) && decide (n ≤ 32)) || n == 0x85 ||
    n == 0xa0 || n == 0x1680 || (decide (0x2000 ≤ n) && decide (n ≤ 0x200a)) || n == 0x2028 ||
    n == 0x2029 || n == 0x202f || n == 0x205f || n == 0x3000

/-- `atoi`, for numbers that an `int` can hold. -/
def atoi (text : List Char) : Int :=
  match text.dropWhile isSpace with
  | '-' :: rest => -(leadingNat rest : Int)
  | '+' :: rest => leadingNat rest
  | rest => leadingNat rest

theorem isDigit_toDigits {c : Char} {n : Nat} (member : c ∈ Nat.toDigits 10 n) :
    c.isDigit = true :=
  Nat.isDigit_of_mem_toDigits (by decide) (by decide) member

theorem parseNat_toDigits (n : Nat) : parseNat (Nat.toDigits 10 n) = some n := by
  rw [parseNat, if_pos, Nat.ofDigitChars_ten_toDigits]
  refine ⟨Nat.toDigits_ne_nil, ?_⟩
  rw [List.all_eq_true]
  intro c member
  exact isDigit_toDigits member

theorem leadingNat_toDigits (n : Nat) : leadingNat (Nat.toDigits 10 n) = n := by
  have all : (Nat.toDigits 10 n).takeWhile Char.isDigit = Nat.toDigits 10 n := by
    rw [List.takeWhile_eq_self_iff]
    intro c member
    exact isDigit_toDigits member
  rw [leadingNat, all, Nat.ofDigitChars_ten_toDigits]

theorem isSpace_of_isDigit {c : Char} (digit : c.isDigit = true) : isSpace c = false := by
  obtain ⟨low, _⟩ := Char.isDigit_iff_toNat.mp digit
  have above : 48 ≤ c.toNat := low
  have noBlank : c ≠ ' ' := by
    rintro rfl
    exact absurd digit (by decide)
  have late : decide (c.toNat ≤ 13) = false := by
    rw [decide_eq_false_iff_not]
    omega
  rw [isSpace, late, Bool.and_false, Bool.or_false, beq_eq_false_iff_ne]
  exact noBlank

/-- A number begins with a digit. -/
theorem toDigits_eq_cons (n : Nat) :
    ∃ c rest, Nat.toDigits 10 n = c :: rest ∧ c.isDigit = true := by
  obtain ⟨c, rest, shape⟩ := List.exists_cons_of_ne_nil (Nat.toDigits_ne_nil (n := n) (b := 10))
  have member : c ∈ Nat.toDigits 10 n := by
    rw [shape]
    exact List.mem_cons_self
  exact ⟨c, rest, shape, isDigit_toDigits member⟩

theorem parseInt_decimal (i : Int) : parseInt (decimal i) = some i := by
  cases i with
  | ofNat n =>
      obtain ⟨c, rest, shape, digit⟩ := toDigits_eq_cons n
      have number := parseNat_toDigits n
      rw [decimal]
      rw [shape] at number ⊢
      unfold parseInt
      split
      · rename_i minus
        cases minus
        exact absurd digit (by decide)
      · rename_i plus
        cases plus
        exact absurd digit (by decide)
      · rw [number]
        rfl
  | negSucc n =>
      rw [decimal, parseInt, parseNat_toDigits]
      rfl

theorem atoi_decimal (i : Int) : atoi (decimal i) = i := by
  cases i with
  | ofNat n =>
      obtain ⟨c, rest, shape, digit⟩ := toDigits_eq_cons n
      have number := leadingNat_toDigits n
      rw [decimal]
      rw [shape] at number ⊢
      rw [atoi, List.dropWhile_cons_of_neg (by simp [isSpace_of_isDigit digit])]
      split
      · rename_i minus
        cases minus
        exact absurd digit (by decide)
      · rename_i plus
        cases plus
        exact absurd digit (by decide)
      · rw [number]
        rfl
  | negSucc n =>
      rw [decimal, atoi, List.dropWhile_cons_of_neg (by decide)]
      simp only [leadingNat_toDigits]
      rfl

/-- A text that begins with a letter is no number. -/
theorem atoi_letter {c : Char} (letter : c.isAlpha = true) (text : List Char) :
    atoi (c :: text) = 0 := by
  have above : 65 ≤ c.toNat := by
    have cased : (c.isUpper || c.isLower) = true := letter
    rcases (Bool.or_eq_true _ _).mp cased with upper | lower
    · exact (of_decide_eq_true upper).1
    · have small : 97 ≤ c.toNat := of_decide_eq_true ((Bool.and_eq_true _ _).mp lower).1
      omega
  have other : ∀ d : Char, d.toNat < 65 → c ≠ d := by
    rintro d small rfl
    omega
  have noSpace : ¬ isSpace c = true := by
    rw [isSpace, Bool.or_eq_true, Bool.and_eq_true, beq_iff_eq, decide_eq_true_eq,
      decide_eq_true_eq]
    rintro (blank | ⟨_, low⟩)
    · exact other ' ' (by decide) blank
    · omega
  have noDigit : ¬ c.isDigit = true := by
    rw [Char.isDigit_iff_toNat]
    rintro ⟨_, high⟩
    have below : c.toNat ≤ 57 := high
    omega
  rw [atoi, List.dropWhile_cons_of_neg noSpace]
  split
  · rename_i same
    exact absurd (List.cons.inj same).1 (other '-' (by decide))
  · rename_i same
    exact absurd (List.cons.inj same).1 (other '+' (by decide))
  · rw [leadingNat, List.takeWhile_cons_of_neg noDigit]
    rfl

theorem decimal_ne_nil (i : Int) : decimal i ≠ [] := by
  cases i with
  | ofNat n => exact Nat.toDigits_ne_nil
  | negSucc n => exact List.cons_ne_nil _ _

theorem mem_decimal {c : Char} {i : Int} (member : c ∈ decimal i) :
    c = '-' ∨ c.isDigit = true := by
  cases i with
  | ofNat n => exact Or.inr (isDigit_toDigits member)
  | negSucc n =>
      rcases List.mem_cons.mp member with rfl | digit
      · exact Or.inl rfl
      · exact Or.inr (isDigit_toDigits digit)

theorem isWord_decimal {sep : Char → Bool} (minus : sep '-' = false)
    (digits : ∀ c, c.isDigit = true → sep c = false) (i : Int) : IsWord sep (decimal i) := by
  refine ⟨decimal_ne_nil i, ?_⟩
  intro c member
  rcases mem_decimal member with rfl | digit
  · exact minus
  · exact digits c digit

theorem decimal_ascii {c : Char} {i : Int} (member : c ∈ decimal i) : c.toNat < 128 := by
  rcases mem_decimal member with rfl | digit
  · decide
  · obtain ⟨_, high⟩ := Char.isDigit_iff_toNat.mp digit
    exact Nat.lt_of_le_of_lt high (by decide)

/-- An `int` has ten digits at most. -/
theorem decimal_length {i : Int} (low : -2 ^ 31 ≤ i) (high : i < 2 ^ 31) :
    (decimal i).length ≤ 11 := by
  cases i with
  | ofNat n =>
      have small : n < 10 ^ 10 := by
        have bound : (n : Int) < 2 ^ 31 := high
        omega
      have digits := (Nat.length_toDigits_le_iff (b := 10) (by decide) (by decide)).mpr small
      exact Nat.le_succ_of_le digits
  | negSucc n =>
      have small : n + 1 < 10 ^ 10 := by omega
      have digits := (Nat.length_toDigits_le_iff (b := 10) (by decide) (by decide)).mpr small
      exact Nat.succ_le_succ digits

theorem isPySpace_of_isDigit {c : Char} (digit : c.isDigit = true) : isPySpace c = false := by
  obtain ⟨low, high⟩ := Char.isDigit_iff_toNat.mp digit
  have above : 48 ≤ c.toNat := low
  have below : c.toNat ≤ 57 := high
  unfold isPySpace
  simp only [Bool.or_eq_false_iff, Bool.and_eq_false_iff, decide_eq_false_iff_not,
    beq_eq_false_iff_ne]
  omega

theorem isWord_decimal_pySpace (i : Int) : IsWord isPySpace (decimal i) :=
  isWord_decimal (by decide) (fun _ digit => isPySpace_of_isDigit digit) i

theorem isWord_decimal_space (i : Int) : IsWord isSpace (decimal i) :=
  isWord_decimal (by decide) (fun _ digit => isSpace_of_isDigit digit) i

end Numbers

end Text
