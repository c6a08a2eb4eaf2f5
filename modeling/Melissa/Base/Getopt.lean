import Mathlib.Data.List.TakeWhile
import Mathlib.Tactic.Common

/-! `getopt_long` on the words of a command line: what its calls return, one after the other. -/

namespace Getopt

abbrev Arg := List Char

structure LongOption (T : Type) where
  name : String
  takesArg : Bool
  val : T
  deriving DecidableEq, Repr

/-- `opts` is the string of the short options; `val` is what `getopt_long` returns for one. -/
structure Spec (T : Type) where
  opts : List Char
  val : Char → T
  longOpts : List (LongOption T)

/-- What one call returns: an option with `optarg`, or `'?'`. -/
inductive Found (T : Type) where
  | option (val : T) (arg : Option Arg)
  | unknown
  deriving DecidableEq, Repr

section Lookup

variable {T : Type}

/-- Whether a short option takes an argument; `none` when there is no such option. -/
def shortTakesArg : List Char → Char → Option Bool
  | [], _ => none
  | opt :: opts, c =>
      if opt = c ∧ c ≠ ':' then some (opts.head? == some ':') else shortTakesArg opts c

/-- A long option is found by its name, or by a beginning of it that belongs to one option
only. -/
def findLong [DecidableEq T] (longOpts : List (LongOption T)) (name : Arg) :
    Option (LongOption T) :=
  match longOpts.find? fun option => option.name.toList == name with
  | some option => some option
  | none =>
      match longOpts.filter fun option => name.isPrefixOf option.name.toList with
      | [] => none
      | option :: others =>
          if others.all fun other =>
              other.takesArg == option.takesArg && decide (other.val = option.val)
            then some option else none

/-- The options of a word with one dash, and the last of them when its argument is the next
word. -/
def scanShort (spec : Spec T) : List Char → List (Found T) × Option T
  | [] => ([], none)
  | c :: rest =>
      match shortTakesArg spec.opts c with
      | none => ((scanShort spec rest).1.cons .unknown, (scanShort spec rest).2)
      | some false =>
          ((scanShort spec rest).1.cons (.option (spec.val c) none), (scanShort spec rest).2)
      | some true =>
          if rest = [] then ([], some (spec.val c))
          else ([.option (spec.val c) (some rest)], none)

end Lookup

section Scan

variable {T : Type} [DecidableEq T]

/-- The results of the calls until `-1`. Words that are no options are passed over; `--` ends
the options. -/
def getoptLong (spec : Spec T) : List Arg → List (Found T)
  | [] => []
  | ('-' :: '-' :: name) :: rest =>
      if name = [] then []
      else
        match findLong spec.longOpts (name.takeWhile (· != '=')), name.dropWhile (· != '=') with
        | none, _ => .unknown :: getoptLong spec rest
        | some option, [] =>
            if option.takesArg then
              match rest with
              | [] => [.unknown]
              | arg :: rest => .option option.val (some arg) :: getoptLong spec rest
            else .option option.val none :: getoptLong spec rest
        | some option, _ :: value =>
            if option.takesArg then .option option.val (some value) :: getoptLong spec rest
            else .unknown :: getoptLong spec rest
  | ('-' :: c :: cs) :: rest =>
      match scanShort spec (c :: cs) with
      | (found, none) => found ++ getoptLong spec rest
      | (found, some val) =>
          match rest with
          | [] => found ++ [.unknown]
          | arg :: rest => found ++ .option val (some arg) :: getoptLong spec rest
  | _ :: rest => getoptLong spec rest

-- Its equations are generated once here, for all the proofs below.
attribute [local simp] getoptLong

/-- A word that `getopt_long` passes over. -/
def IsOperand (word : Arg) : Prop :=
  word = ['-'] ∨ word.head? ≠ some '-'

theorem takeWhile_dropWhile_noValue {name : Arg} (noValue : '=' ∉ name) :
    name.takeWhile (· != '=') = name ∧ name.dropWhile (· != '=') = [] := by
  have all : ∀ c ∈ name, (c != '=') = true := by
    intro c member
    rw [bne_iff_ne]
    rintro rfl
    exact noValue member
  exact ⟨List.takeWhile_eq_self_iff.mpr all, List.dropWhile_eq_nil_iff.mpr all⟩

variable (spec : Spec T)

theorem getoptLong_short {c : Char} (known : shortTakesArg spec.opts c = some true)
    (notLong : c ≠ '-') (arg : Arg) (rest : List Arg) :
    getoptLong spec (['-', c] :: arg :: rest) =
      .option (spec.val c) (some arg) :: getoptLong spec rest := by
  rw [getoptLong]
  · simp only [scanShort, known, if_true, List.nil_append]
  · exact notLong

/-- An option without its argument at the end of the command line. -/
theorem getoptLong_shortAlone {c : Char} (known : shortTakesArg spec.opts c = some true)
    (notLong : c ≠ '-') : getoptLong spec [['-', c]] = [.unknown] := by
  rw [getoptLong]
  · simp only [scanShort, known, if_true, List.nil_append]
  · exact notLong

theorem getoptLong_long {name : Arg} {option : LongOption T} (filled : name ≠ [])
    (noValue : '=' ∉ name) (known : findLong spec.longOpts name = some option)
    (takes : option.takesArg = true) (arg : Arg) (rest : List Arg) :
    getoptLong spec (('-' :: '-' :: name) :: arg :: rest) =
      .option option.val (some arg) :: getoptLong spec rest := by
  obtain ⟨whole, nothing⟩ := takeWhile_dropWhile_noValue noValue
  rw [getoptLong, if_neg filled, whole, nothing, known]
  dsimp only
  rw [if_pos takes]

theorem getoptLong_unknown {name : Arg} (filled : name ≠ []) (noValue : '=' ∉ name)
    (unknown : findLong spec.longOpts name = none) (rest : List Arg) :
    getoptLong spec (('-' :: '-' :: name) :: rest) = .unknown :: getoptLong spec rest := by
  obtain ⟨whole, nothing⟩ := takeWhile_dropWhile_noValue noValue
  rw [getoptLong, if_neg filled, whole, nothing, unknown]

theorem getoptLong_operand {word : Arg} (operand : IsOperand word) (rest : List Arg) :
    getoptLong spec (word :: rest) = getoptLong spec rest := by
  rcases operand with rfl | noDash
  · rw [getoptLong]
    · intro name same
      cases same
    · intro c cs same
      cases same
  · rw [getoptLong]
    · rintro name rfl
      exact noDash rfl
    · rintro c cs rfl
      exact noDash rfl

theorem getoptLong_operands {words : List Arg} (operands : ∀ word ∈ words, IsOperand word)
    (rest : List Arg) : getoptLong spec (words ++ rest) = getoptLong spec rest := by
  induction words with
  | nil => rfl
  | cons word words ih =>
      rw [List.forall_mem_cons] at operands
      rw [List.cons_append, getoptLong_operand spec operands.1, ih operands.2]

end Scan

end Getopt
