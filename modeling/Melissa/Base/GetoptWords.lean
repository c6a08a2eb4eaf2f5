import Melissa.Base.Getopt

/-! The words of a command line one at a time: what `getopt_long` finds in a word, and whether
it takes the next word too. -/

namespace Getopt

section Words

theorem mem_of_shortTakesArg {opts : List Char} {c : Char} {takes : Bool}
    (known : shortTakesArg opts c = some takes) : c ∈ opts := by
  induction opts with
  | nil => exact (nomatch known)
  | cons opt opts ih =>
      rw [shortTakesArg] at known
      split at known
      · rename_i here
        rw [here.1]
        exact List.mem_cons_self
      · exact List.mem_cons_of_mem _ (ih known)

variable {T : Type} [DecidableEq T]

theorem findLong_eq_some {longOpts : List (LongOption T)} {name : Arg} {option : LongOption T}
    (known : findLong longOpts name = some option) :
    option ∈ longOpts ∧ name <+: option.name.toList := by
  unfold findLong at known
  split at known
  · rename_i same
    cases known
    have named : (option.name.toList == name) = true :=
      List.find?_some (p := fun other : LongOption T => other.name.toList == name) same
    exact ⟨List.mem_of_find?_eq_some same, [], by rw [List.append_nil, beq_iff_eq.mp named]⟩
  · split at known
    · cases known
    · rename_i shape
      split at known
      · cases known
        have inside :
            option ∈ longOpts.filter fun option => name.isPrefixOf option.name.toList := by
          rw [shape]
          exact List.mem_cons_self
        obtain ⟨member, begins⟩ := List.mem_filter.mp inside
        exact ⟨member, List.isPrefixOf_iff_prefix.mp begins⟩
      · cases known

/-- A word with two dashes, without them. -/
def scanLong (spec : Spec T) (name : List Char) : List (Found T) × Option T :=
  match findLong spec.longOpts (name.takeWhile (· != '=')), name.dropWhile (· != '=') with
  | none, _ => ([.unknown], none)
  | some option, [] =>
      if option.takesArg then ([], some option.val) else ([.option option.val none], none)
  | some option, _ :: value =>
      if option.takesArg then ([.option option.val (some value)], none) else ([.unknown], none)

/-- What is found in a word with two dashes is its option. -/
theorem scanLong_val {spec : Spec T} {name : List Char} {val : T}
    (finds : (∃ arg, .option val arg ∈ (scanLong spec name).1) ∨
      (scanLong spec name).2 = some val) :
    ∃ option, findLong spec.longOpts (name.takeWhile (· != '=')) = some option ∧
      option.val = val := by
  unfold scanLong at finds
  generalize name.dropWhile (· != '=') = value at finds
  cases known : findLong spec.longOpts (name.takeWhile (· != '=')) with
  | none =>
      rw [known] at finds
      rcases finds with ⟨arg, member⟩ | waits
      · exact (nomatch List.mem_singleton.mp member)
      · exact (nomatch waits)
  | some option =>
      rw [known] at finds
      refine ⟨option, rfl, ?_⟩
      cases takes : option.takesArg <;> cases value <;>
        simp only [takes, Bool.false_eq_true, if_true, if_false, List.mem_singleton,
          List.not_mem_nil, Found.option.injEq, reduceCtorEq, exists_false, or_false, false_or,
          Option.some.injEq, exists_eq_right] at finds
      · exact finds.symm
      · exact finds
      · exact finds.symm

/-- The options of a word, and the last of them when its argument is the next word. -/
def scanWord (spec : Spec T) : Arg → List (Found T) × Option T
  | ['-', '-'] => ([], none)
  | '-' :: '-' :: name => scanLong spec name
  | '-' :: c :: cs => scanShort spec (c :: cs)
  | _ => ([], none)

attribute [local simp] scanWord

theorem word_cases (word : Arg) :
    word = ['-', '-'] ∨ (∃ name, name ≠ [] ∧ word = '-' :: '-' :: name) ∨
      (∃ c cs, c ≠ '-' ∧ word = '-' :: c :: cs) ∨ IsOperand word := by
  match word with
  | [] => exact Or.inr (Or.inr (Or.inr (Or.inr (by decide))))
  | [c] =>
      by_cases dash : c = '-'
      · exact Or.inr (Or.inr (Or.inr (Or.inl (by rw [dash]))))
      · exact Or.inr (Or.inr (Or.inr (Or.inr fun same => dash (Option.some.inj same))))
  | c :: d :: rest =>
      by_cases dash : c = '-'
      · subst dash
        by_cases long : d = '-'
        · subst long
          by_cases empty : rest = []
          · exact Or.inl (by rw [empty])
          · exact Or.inr (Or.inl ⟨rest, empty, rfl⟩)
        · exact Or.inr (Or.inr (Or.inl ⟨d, rest, long, rfl⟩))
      · exact Or.inr (Or.inr (Or.inr (Or.inr fun same => dash (Option.some.inj same))))

variable {spec : Spec T}

theorem scanWord_long {name : List Char} (filled : name ≠ []) :
    scanWord spec ('-' :: '-' :: name) = scanLong spec name := by
  rw [scanWord]
  intro same
  cases same
  exact filled rfl

theorem scanWord_short {c : Char} (notLong : c ≠ '-') (cs : List Char) :
    scanWord spec ('-' :: c :: cs) = scanShort spec (c :: cs) := by
  rw [scanWord]
  · exact fun same => absurd same notLong
  · exact notLong

theorem scanWord_operand {word : Arg} (operand : IsOperand word) :
    scanWord spec word = ([], none) := by
  rcases operand with rfl | noDash
  · rfl
  · rw [scanWord]
    · rintro rfl
      exact noDash rfl
    · rintro name rfl
      exact noDash rfl
    · rintro c cs rfl
      exact noDash rfl

theorem getoptLong_dashes (rest : List Arg) : getoptLong spec (['-', '-'] :: rest) = [] := by
  rw [getoptLong, if_pos rfl]

/-- What `getopt_long` returns for a word, and goes on with. -/
theorem getoptLong_cons {word : Arg} (more : word ≠ ['-', '-']) (rest : List Arg) :
    getoptLong spec (word :: rest) =
      match scanWord spec word, rest with
      | (found, none), rest => found ++ getoptLong spec rest
      | (found, some _), [] => found ++ [.unknown]
      | (found, some val), arg :: rest =>
          found ++ .option val (some arg) :: getoptLong spec rest := by
  rcases word_cases word with ended | ⟨name, filled, rfl⟩ | ⟨c, cs, notLong, rfl⟩ | operand
  · exact absurd ended more
  · rw [scanWord_long filled, getoptLong, if_neg filled, scanLong]
    cases findLong spec.longOpts (name.takeWhile (· != '=')) with
    | none => rfl
    | some option =>
        obtain ⟨value, behind⟩ : ∃ value, name.dropWhile (· != '=') = value := ⟨_, rfl⟩
        rw [behind]
        cases takes : option.takesArg with
        | true =>
            cases value with
            | nil =>
                simp only [takes, if_true]
                cases rest <;> rfl
            | cons c value =>
                simp only [takes, if_true]
                rfl
        | false =>
            cases value with
            | nil =>
                simp only [takes, Bool.false_eq_true, if_false]
                rfl
            | cons c value =>
                simp only [takes, Bool.false_eq_true, if_false]
                rfl
  · rw [scanWord_short notLong, getoptLong]
    · obtain ⟨found, pending⟩ := scanShort spec (c :: cs)
      cases pending with
      | none => rfl
      | some val => cases rest <;> rfl
    · exact notLong
  · rw [scanWord_operand operand, getoptLong_operand spec operand]
    rfl

theorem getoptLong_alone {word : Arg} (more : word ≠ ['-', '-'])
    (whole : (scanWord spec word).2 = none) (rest : List Arg) :
    getoptLong spec (word :: rest) = (scanWord spec word).1 ++ getoptLong spec rest := by
  obtain ⟨found, pending⟩ : ∃ found, scanWord spec word = (found, none) := ⟨_, Prod.ext rfl whole⟩
  rw [getoptLong_cons more, pending]

theorem ne_dashes {word : Arg} {val : T} (pending : (scanWord spec word).2 = some val) :
    word ≠ ['-', '-'] := by
  rintro rfl
  exact (nomatch pending)

/-- The next word is the argument. -/
theorem getoptLong_withArg {word : Arg} {val : T} (pending : (scanWord spec word).2 = some val)
    (arg : Arg) (rest : List Arg) :
    getoptLong spec (word :: arg :: rest) =
      (scanWord spec word).1 ++ .option val (some arg) :: getoptLong spec rest := by
  obtain ⟨found, scanned⟩ : ∃ found, scanWord spec word = (found, some val) :=
    ⟨_, Prod.ext rfl pending⟩
  rw [getoptLong_cons (ne_dashes pending), scanned]

/-- There is no next word. -/
theorem getoptLong_last {word : Arg} {val : T} (pending : (scanWord spec word).2 = some val) :
    getoptLong spec [word] = (scanWord spec word).1 ++ [.unknown] := by
  obtain ⟨found, scanned⟩ : ∃ found, scanWord spec word = (found, some val) :=
    ⟨_, Prod.ext rfl pending⟩
  rw [getoptLong_cons (ne_dashes pending), scanned]

/-- The words in the steps of `getopt_long`. -/
theorem scan_induction (spec : Spec T) {motive : List Arg → Prop} (nil : motive [])
    (dashes : ∀ rest, motive (['-', '-'] :: rest))
    (alone : ∀ word rest, word ≠ ['-', '-'] → (scanWord spec word).2 = none → motive rest →
      motive (word :: rest))
    (last : ∀ word val, (scanWord spec word).2 = some val → motive [word])
    (withArg : ∀ word val arg rest, (scanWord spec word).2 = some val → motive rest →
      motive (word :: arg :: rest)) : ∀ args, motive args
  | [] => nil
  | word :: rest => by
      by_cases ended : word = ['-', '-']
      · rw [ended]
        exact dashes rest
      · cases pending : (scanWord spec word).2 with
        | none =>
            exact alone word rest ended pending
              (scan_induction spec nil dashes alone last withArg rest)
        | some val =>
            match rest with
            | [] => exact last word val pending
            | arg :: rest =>
                exact withArg word val arg rest pending
                  (scan_induction spec nil dashes alone last withArg rest)

/-- Whether a word `--` stands where an option may stand. -/
def endedByDashes (spec : Spec T) : List Arg → Bool
  | [] => false
  | word :: rest =>
      if word = ['-', '-'] then true
      else
        match (scanWord spec word).2, rest with
        | some _, _ :: rest => endedByDashes spec rest
        | _, rest => endedByDashes spec rest

theorem endedByDashes_alone {word : Arg} (more : word ≠ ['-', '-'])
    (whole : (scanWord spec word).2 = none) (rest : List Arg) :
    endedByDashes spec (word :: rest) = endedByDashes spec rest := by
  conv_lhs => unfold endedByDashes
  rw [if_neg more, whole]

theorem endedByDashes_withArg {word : Arg} {val : T}
    (pending : (scanWord spec word).2 = some val) (arg : Arg) (rest : List Arg) :
    endedByDashes spec (word :: arg :: rest) = endedByDashes spec rest := by
  conv_lhs => unfold endedByDashes
  rw [if_neg (ne_dashes pending), pending]

/-- Behind `--` nothing is read. -/
theorem getoptLong_append_ended {args : List Arg} (ended : endedByDashes spec args = true)
    (more : List Arg) : getoptLong spec (args ++ more) = getoptLong spec args := by
  revert ended
  induction args using scan_induction spec with
  | nil => exact fun ended => (nomatch ended)
  | dashes rest =>
      intro _
      rw [List.cons_append, getoptLong_dashes, getoptLong_dashes]
  | alone word rest notEnd whole ih =>
      intro ended
      rw [endedByDashes_alone notEnd whole] at ended
      rw [List.cons_append, getoptLong_alone notEnd whole, getoptLong_alone notEnd whole,
        ih ended]
  | last word val pending =>
      intro ended
      unfold endedByDashes at ended
      rw [if_neg (ne_dashes pending), pending] at ended
      exact (nomatch ended)
  | withArg word val arg rest pending ih =>
      intro ended
      rw [endedByDashes_withArg pending] at ended
      rw [List.cons_append, List.cons_append, getoptLong_withArg pending,
        getoptLong_withArg pending, ih ended]

/-- Words behind a command line are read by themselves, but for the first of them when the last
option waits for its argument. -/
theorem getoptLong_append {args : List Arg} (unended : endedByDashes spec args = false) :
    (∀ more, getoptLong spec (args ++ more) = getoptLong spec args ++ getoptLong spec more) ∨
      ∃ front val, getoptLong spec args = front ++ [.unknown] ∧
        ∀ arg more, getoptLong spec (args ++ arg :: more) =
          front ++ .option val (some arg) :: getoptLong spec more := by
  revert unended
  induction args using scan_induction spec with
  | nil => exact fun _ => Or.inl fun more => rfl
  | dashes rest =>
      intro unended
      unfold endedByDashes at unended
      rw [if_pos rfl] at unended
      exact (nomatch unended)
  | alone word rest notEnd whole ih =>
      intro unended
      rw [endedByDashes_alone notEnd whole] at unended
      rcases ih unended with whollyRead | ⟨front, val, waiting, taken⟩
      · refine Or.inl fun more => ?_
        rw [List.cons_append, getoptLong_alone notEnd whole, getoptLong_alone notEnd whole,
          whollyRead, List.append_assoc]
      · refine Or.inr ⟨(scanWord spec word).1 ++ front, val, ?_, fun arg more => ?_⟩
        · rw [getoptLong_alone notEnd whole, waiting, List.append_assoc]
        · rw [List.cons_append, getoptLong_alone notEnd whole, taken, List.append_assoc]
  | last word val pending =>
      intro _
      exact Or.inr ⟨(scanWord spec word).1, val, getoptLong_last pending,
        fun arg more => getoptLong_withArg pending arg more⟩
  | withArg word val arg rest pending ih =>
      intro unended
      rw [endedByDashes_withArg pending] at unended
      have first := fun rest => getoptLong_withArg pending arg rest
      rcases ih unended with whollyRead | ⟨front, other, waiting, taken⟩
      · refine Or.inl fun more => ?_
        rw [List.cons_append, List.cons_append, first, first, whollyRead, List.append_assoc,
          List.cons_append]
      · refine Or.inr ⟨(scanWord spec word).1 ++ .option val (some arg) :: front, other, ?_,
          fun next more => ?_⟩
        · rw [first, waiting, List.append_assoc, List.cons_append]
        · rw [List.cons_append, List.cons_append, first, taken, List.append_assoc,
            List.cons_append]

end Words

end Getopt
