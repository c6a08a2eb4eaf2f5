import Melissa.Base.GetoptWords

/-! The words of a command line after `getopt_long` has gone through them: it moves those that are
no options to the end, and the program may change the arguments it gets in place. `getopt`, which
knows no long options, may read them again. -/

namespace Getopt

section Getopt

variable {T : Type}

/-- For `getopt` a word with two dashes is one with the option `-`. -/
def scanDash (spec : Spec T) : Arg → List (Found T) × Option T
  | '-' :: letters => scanShort spec letters
  | _ => ([], none)

/-- The results of `getopt` until `-1`. An argument that is missing counts as unknown. -/
def getopt (spec : Spec T) : List Arg → List (Found T)
  | [] => []
  | word :: rest =>
      if word = ['-', '-'] then []
      else
        match scanDash spec word, rest with
        | (found, none), rest => found ++ getopt spec rest
        | (found, some _), [] => found ++ [.unknown]
        | (found, some val), arg :: rest => found ++ .option val (some arg) :: getopt spec rest

variable {spec : Spec T} {word : Arg}

theorem getopt_alone (more : word ≠ ['-', '-']) (whole : (scanDash spec word).2 = none)
    (rest : List Arg) :
    getopt spec (word :: rest) = (scanDash spec word).1 ++ getopt spec rest := by
  obtain ⟨found, scanned⟩ : ∃ found, scanDash spec word = (found, none) := ⟨_, Prod.ext rfl whole⟩
  conv_lhs => unfold getopt
  rw [if_neg more, scanned]

theorem getopt_last {val : T} (more : word ≠ ['-', '-'])
    (pending : (scanDash spec word).2 = some val) :
    getopt spec [word] = (scanDash spec word).1 ++ [.unknown] := by
  obtain ⟨found, scanned⟩ : ∃ found, scanDash spec word = (found, some val) :=
    ⟨_, Prod.ext rfl pending⟩
  conv_lhs => unfold getopt
  rw [if_neg more, scanned]

theorem getopt_withArg {val : T} (more : word ≠ ['-', '-'])
    (pending : (scanDash spec word).2 = some val) (arg : Arg) (rest : List Arg) :
    getopt spec (word :: arg :: rest) =
      (scanDash spec word).1 ++ .option val (some arg) :: getopt spec rest := by
  obtain ⟨found, scanned⟩ : ∃ found, scanDash spec word = (found, some val) :=
    ⟨_, Prod.ext rfl pending⟩
  conv_lhs => unfold getopt
  rw [if_neg more, scanned]

end Getopt

section Permute

variable {T : Type} [DecidableEq T]

instance (word : Arg) : Decidable (IsOperand word) :=
  inferInstanceAs (Decidable (word = ['-'] ∨ word.head? ≠ some '-'))

variable (spec : Spec T) (touch : T → Arg → Arg)

/-- A word with one dash, with the argument in it after the program has worked on it. -/
def touchShort : List Char → List Char
  | [] => []
  | c :: rest =>
      if shortTakesArg spec.opts c = some true then
        c :: if rest = [] then [] else touch (spec.val c) rest
      else c :: touchShort rest

def touchLong (name : List Char) : List Char :=
  match findLong spec.longOpts (name.takeWhile (· != '=')), name.dropWhile (· != '=') with
  | some option, equals :: value =>
      if option.takesArg then
        name.takeWhile (· != '=') ++ equals :: touch option.val value
      else name
  | _, _ => name

def touchWord : Arg → Arg
  | '-' :: '-' :: name => '-' :: '-' :: touchLong spec touch name
  | '-' :: c :: cs => '-' :: touchShort spec touch (c :: cs)
  | word => word

/-- The options with their arguments, and behind them what is none. -/
def permute : List Arg → List Arg × List Arg
  | [] => ([], [])
  | word :: rest =>
      if word = ['-', '-'] then ([word], rest)
      else if IsOperand word then ((permute rest).1, word :: (permute rest).2)
      else
        match (scanWord spec word).2, rest with
        | some val, arg :: rest => (word :: touch val arg :: (permute rest).1, (permute rest).2)
        | _, rest => (touchWord spec touch word :: (permute rest).1, (permute rest).2)

/-- `argv` when `getopt_long` has returned `-1`. -/
def argvAfter (args : List Arg) : List Arg :=
  (permute spec touch args).1 ++ (permute spec touch args).2

end Permute

end Getopt
