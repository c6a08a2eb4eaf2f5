import Melissa.Base.Argv
import Melissa.CommandLine.Agree
import Melissa.Messages.SimuData

/-! `melissa_get_fields`: the names of the fields, read by a second parser from the words that the
first one has left. -/

namespace Melissa

open Getopt Runs Text

section Left

/-- What a list between colons is after `strtok`: a zero stands behind its first token. -/
def strtokLeft (name : List Char) : List Char :=
  name.takeWhile isColon ++ (name.dropWhile isColon).takeWhile fun c => !isColon c

/-- What `melissa_get_options` does to the arguments in place. -/
def optionsLeft : OptVal → Arg → Arg
  | .letter 'o', name =>
      if name = ['-'] ∨ name = [':'] then name else (strtokLeft name).map Char.toLower
  | .letter 'e', name => strtokLeft name
  | .letter 'q', name => strtokLeft name
  | _, name => name

/-- The words behind the name of the program when `melissa_get_options` has returned. -/
def argvLeft (args : List Arg) : List Arg := argvAfter serverSpec optionsLeft args

end Left

section Table

/-- The bytes that `strncpy` puts into a name of zeros. -/
def copyName (name : List Char) : List UInt8 := (Utf8.encode name).take maxFieldName

/-- The names of the fields; `none` where nothing has been assigned. -/
abbrev FieldNames := List (Option (List UInt8))

/-- The tokens of an argument go to the first fields; behind the last one the memory is not
theirs. -/
def writeNames : List (List Char) → FieldNames → Option FieldNames
  | [], fields => some fields
  | _ :: _, [] => none
  | name :: names, _ :: fields => (writeNames names fields).map (some (copyName name) :: ·)

def fieldSpec : Spec Char := { opts := ":f:".toList, val := id, longOpts := [] }

def readField (fields : FieldNames) : Found Char → Option FieldNames
  | .option 'f' (some arg) => writeNames (words isColon arg) fields
  | _ => some fields

def melissaGetFields (argv : List Arg) (nbFields : Nat) : Option FieldNames :=
  run readField (List.replicate nbFields none) (getopt fieldSpec argv)

/-- What a word has behind the first `f` after its dash. -/
def behindF : Arg → Option (List Char)
  | '-' :: letters =>
      match letters.dropWhile (· != 'f') with
      | [] => none
      | _ :: behind => some behind
  | _ => none

/-- The arguments of `f` in the words: the end of a word, or the next word. -/
def fieldArgs : List Arg → List Arg
  | [] => []
  | word :: rest =>
      if word = ['-', '-'] then []
      else
        match behindF word, rest with
        | none, rest => fieldArgs rest
        | some (c :: behind), rest => (c :: behind) :: fieldArgs rest
        | some [], [] => []
        | some [], arg :: rest => arg :: fieldArgs rest

/-- The last of the names at a position of the arguments. -/
def lastName (args : List Arg) (i : Nat) : Option (List Char) :=
  (args.filterMap fun arg => (words isColon arg)[i]?).getLast?

end Table

section Second

def foundArg : Found Char → Option Arg
  | .option 'f' arg => arg
  | _ => none

theorem shortTakesArg_field {c : Char} (other : c ≠ 'f') :
    shortTakesArg fieldSpec.opts c = none := by
  have noColon : ¬ (':' = c ∧ c ≠ ':') := fun both => both.2 both.1.symm
  have noF : ¬ ('f' = c ∧ c ≠ ':') := fun both => other both.1.symm
  change shortTakesArg [':', 'f', ':'] c = none
  rw [shortTakesArg, if_neg noColon, shortTakesArg, if_neg noF, shortTakesArg, if_neg noColon,
    shortTakesArg]

/-- What `getopt` finds in a word is its first `f`. -/
theorem scanShort_field (letters : List Char) :
    (scanShort fieldSpec letters).1.filterMap foundArg =
        (match behindF ('-' :: letters) with
          | some (c :: behind) => [c :: behind]
          | _ => []) ∧
      (scanShort fieldSpec letters).2 =
        (match behindF ('-' :: letters) with
          | some [] => some 'f'
          | _ => none) := by
  induction letters with
  | nil => exact ⟨rfl, rfl⟩
  | cons c rest ih =>
      by_cases field : c = 'f'
      · subst field
        cases rest with
        | nil => exact ⟨rfl, rfl⟩
        | cons d rest => exact ⟨rfl, rfl⟩
      · have passes : behindF ('-' :: c :: rest) = behindF ('-' :: rest) := by
          have other : (c != 'f') = true := bne_iff_ne.mpr field
          rw [behindF, behindF, List.dropWhile_cons_of_pos (p := fun x => x != 'f') other]
        rw [scanShort, shortTakesArg_field field, passes]
        exact ih

theorem behindF_operand {word : Arg} (noDash : word.head? ≠ some '-') : behindF word = none := by
  unfold behindF
  split
  · exact absurd rfl noDash
  · rfl

theorem scanDash_field (word : Arg) :
    (scanDash fieldSpec word).1.filterMap foundArg =
        (match behindF word with
          | some (c :: behind) => [c :: behind]
          | _ => []) ∧
      (scanDash fieldSpec word).2 =
        (match behindF word with
          | some [] => some 'f'
          | _ => none) := by
  by_cases dash : word.head? = some '-'
  · obtain ⟨letters, rfl⟩ := List.head?_eq_some_iff.mp dash
    exact scanShort_field letters
  · have scanned : scanDash fieldSpec word = ([], none) := by
      unfold scanDash
      split
      · exact absurd rfl dash
      · rfl
    rw [scanned, behindF_operand dash]
    exact ⟨rfl, rfl⟩

theorem fieldArgs_dashes (rest : List Arg) : fieldArgs (['-', '-'] :: rest) = [] := by
  unfold fieldArgs
  rw [if_pos rfl]

theorem fieldArgs_none {word : Arg} (more : word ≠ ['-', '-']) (nothing : behindF word = none)
    (rest : List Arg) : fieldArgs (word :: rest) = fieldArgs rest := by
  conv_lhs => unfold fieldArgs
  rw [if_neg more, nothing]

theorem fieldArgs_attached {word : Arg} {c : Char} {behind : List Char}
    (more : word ≠ ['-', '-']) (found : behindF word = some (c :: behind)) (rest : List Arg) :
    fieldArgs (word :: rest) = (c :: behind) :: fieldArgs rest := by
  conv_lhs => unfold fieldArgs
  rw [if_neg more, found]

theorem fieldArgs_last {word : Arg} (more : word ≠ ['-', '-']) (found : behindF word = some []) :
    fieldArgs [word] = [] := by
  unfold fieldArgs
  rw [if_neg more, found]

theorem fieldArgs_next {word : Arg} (more : word ≠ ['-', '-']) (found : behindF word = some [])
    (arg : Arg) (rest : List Arg) : fieldArgs (word :: arg :: rest) = arg :: fieldArgs rest := by
  conv_lhs => unfold fieldArgs
  rw [if_neg more, found]

theorem getopt_fieldArgs : ∀ argv : List Arg,
    (getopt fieldSpec argv).filterMap foundArg = fieldArgs argv
  | [] => rfl
  | word :: rest => by
      have onward := getopt_fieldArgs rest
      obtain ⟨args, waits⟩ := scanDash_field word
      by_cases ended : word = ['-', '-']
      · rw [ended, fieldArgs_dashes]
        rfl
      match found : behindF word with
      | none =>
          rw [found] at args waits
          rw [getopt_alone ended waits, fieldArgs_none ended found, List.filterMap_append, args,
            onward]
          rfl
      | some (c :: behind) =>
          rw [found] at args waits
          rw [getopt_alone ended waits, fieldArgs_attached ended found, List.filterMap_append,
            args, onward]
          rfl
      | some [] =>
          rw [found] at args waits
          match rest with
          | [] =>
              rw [getopt_last ended waits, fieldArgs_last ended found, List.filterMap_append, args]
              rfl
          | arg :: rest =>
              rw [getopt_withArg ended waits, fieldArgs_next ended found, List.filterMap_append,
                args, ← getopt_fieldArgs rest]
              rfl

end Second

section Written

variable {fields fields' table : FieldNames}

theorem writeNames_eq_some {names : List (List Char)} :
    writeNames names fields = some fields' ↔ names.length ≤ fields.length ∧
      fields' = names.map (fun name => some (copyName name)) ++ fields.drop names.length := by
  induction names generalizing fields fields' with
  | nil =>
      rw [writeNames, Option.some.injEq]
      exact ⟨fun same => ⟨Nat.zero_le _, same.symm⟩, fun both => both.2.symm⟩
  | cons name names ih =>
      cases fields with
      | nil => exact ⟨fun written => (nomatch written), fun both => absurd both.1 (by simp)⟩
      | cons field fields =>
          rw [writeNames, Option.map_eq_some_iff]
          constructor
          · rintro ⟨later, written, rfl⟩
            obtain ⟨fits, rfl⟩ := ih.mp written
            exact ⟨Nat.succ_le_succ fits, rfl⟩
          · rintro ⟨fits, rfl⟩
            exact ⟨_, ih.mpr ⟨Nat.le_of_succ_le_succ fits, rfl⟩, rfl⟩

/-- What is in a field, when a name has been written to it or not. -/
def entryAfter (old : Option (Option (List UInt8))) :
    Option (List Char) → Option (Option (List UInt8))
  | none => old
  | some name => some (some (copyName name))

theorem writeNames_getElem {names : List (List Char)}
    (written : writeNames names fields = some fields') :
    fields'.length = fields.length ∧
      ∀ i : Nat, fields'[i]? = entryAfter fields[i]? names[i]? := by
  obtain ⟨fits, rfl⟩ := writeNames_eq_some.mp written
  constructor
  · rw [List.length_append, List.length_map, List.length_drop, Nat.add_sub_cancel' fits]
  · intro i
    by_cases inside : i < names.length
    · rw [List.getElem?_append_left (by rwa [List.length_map]), List.getElem?_map,
        List.getElem?_eq_getElem inside]
      rfl
    · have behind : names.length ≤ i := Nat.le_of_not_lt inside
      rw [List.getElem?_append_right (by rwa [List.length_map]), List.length_map,
        List.getElem?_drop, Nat.add_sub_cancel' behind, List.getElem?_eq_none behind]
      rfl

theorem lastName_cons (arg : Arg) (args : List Arg) (i : Nat) :
    lastName (arg :: args) i = (lastName args i).or (words isColon arg)[i]? := by
  unfold lastName
  rw [List.filterMap_cons]
  cases (words isColon arg)[i]? with
  | none => rw [Option.or_none]
  | some name =>
      rw [List.getLast?_cons]
      cases (List.filterMap (fun arg => (words isColon arg)[i]?) args).getLast? with
      | none => rfl
      | some last => rfl

theorem entryAfter_or (old : Option (Option (List UInt8))) (later first : Option (List Char)) :
    entryAfter old (later.or first) = entryAfter (entryAfter old first) later := by
  cases later <;> rfl

theorem readField_eq (fields : FieldNames) (e : Found Char) :
    readField fields e =
      match foundArg e with
      | none => some fields
      | some arg => writeNames (words isColon arg) fields := by
  unfold readField
  split
  · rfl
  · rename_i other
    cases seen : foundArg e with
    | none => rfl
    | some arg =>
        unfold foundArg at seen
        split at seen
        · cases seen
          exact absurd rfl (other arg)
        · exact (nomatch seen)

/-- A field holds the last of the names that are written to it. -/
theorem run_readField {found : List (Found Char)} :
    run readField fields found = some table ↔
      (∀ arg ∈ found.filterMap foundArg, (words isColon arg).length ≤ fields.length) ∧
        table.length = fields.length ∧
          ∀ i : Nat, table[i]? = entryAfter fields[i]? (lastName (found.filterMap foundArg) i) := by
  induction found generalizing fields with
  | nil =>
      rw [run_nil, Option.some.injEq]
      constructor
      · rintro rfl
        exact ⟨fun arg member => (nomatch member), rfl, fun i => rfl⟩
      · rintro ⟨-, -, same⟩
        exact (List.ext_getElem? same).symm
  | cons e found ih =>
      rw [run_cons, readField_eq]
      cases seen : foundArg e with
      | none =>
          rw [List.filterMap_cons_none seen, ← ih]
          exact Iff.rfl
      | some arg =>
          rw [List.filterMap_cons_some seen, List.forall_mem_cons, Option.bind_eq_some_iff]
          constructor
          · rintro ⟨mid, first, onward⟩
            obtain ⟨sameLength, entries⟩ := writeNames_getElem first
            obtain ⟨fit, length, later⟩ := ih.mp onward
            rw [sameLength] at fit length
            refine ⟨⟨(writeNames_eq_some.mp first).1, fit⟩, length, fun i => ?_⟩
            rw [later, entries, lastName_cons, entryAfter_or]
          · rintro ⟨⟨fits, fit⟩, length, entries⟩
            have first := writeNames_eq_some.mpr ⟨fits, rfl⟩
            obtain ⟨sameLength, mid⟩ := writeNames_getElem first
            refine ⟨_, first, ih.mpr ⟨?_, ?_, fun i => ?_⟩⟩
            · rwa [sameLength]
            · rw [sameLength, length]
            · rw [mid, entries, lastName_cons, entryAfter_or]

end Written

section Counted

variable {D : Type}

def fieldOption : Found OptVal → Option Arg
  | .option (.letter 'f') arg => arg
  | _ => none

theorem withDefaultOperations_nbFields (options : ParsedOptions D) :
    (withDefaultOperations options).nbFields = options.nbFields := by
  unfold withDefaultOperations
  split <;> rfl

variable [Zero D] {numbers : CNumbers D} {options options' : ParsedOptions D}

theorem readOption_nbFields {e : Found OptVal} (other : fieldOption e = none)
    (read : readOption numbers options e = some options') :
    options'.nbFields = options.nbFields := by
  unfold readOption at read
  split at read
  any_goals
    refine map_kept ParsedOptions.nbFields ?_ read
    exact fun _ => rfl
  all_goals first
    | exact getOperations_kept ParsedOptions.nbFields (fun _ => rfl) read
    | exact (congrArg ParsedOptions.nbFields (Option.some.inj read)).symm
    | exact absurd other (Option.some_ne_none _)
    | exact (nomatch read)

theorem run_nbFields {found : List (Found OptVal)} (others : ∀ e ∈ found, fieldOption e = none)
    (read : run (readOption numbers) options found = some options') :
    options'.nbFields = options.nbFields := by
  have kept : ∀ before, ∀ e ∈ found, ∀ after, before.nbFields = options.nbFields →
      readOption numbers before e = some after → after.nbFields = options.nbFields := by
    intro before e member after same step
    rw [readOption_nbFields (others e member) step, same]
  exact @run_invariant_of_mem _ _ _ (fun after => after.nbFields = options.nbFields) _ _ _ kept
    rfl read

/-- With one option `-f` its parts are counted. -/
theorem run_oneField {found : List (Found OptVal)} {arg : Arg}
    (one : found.filterMap fieldOption = [arg])
    (read : run (readOption numbers) options found = some options') :
    getNbFields arg = some options'.nbFields := by
  obtain ⟨front, e, back, rfl, before, isField, behind⟩ := List.filterMap_eq_cons_iff.mp one
  have given : e = .option (.letter 'f') (some arg) := by
    unfold fieldOption at isField
    split at isField
    · rw [isField]
    · exact (nomatch isField)
  subst given
  rw [run_append] at read
  obtain ⟨mid, _, read⟩ := Option.bind_eq_some_iff.mp read
  obtain ⟨next, step, onward⟩ := Option.bind_eq_some_iff.mp read
  obtain ⟨nbFields, counted, rfl⟩ := Option.map_eq_some_iff.mp step
  rw [counted, run_nbFields (List.filterMap_eq_nil_iff.mp behind) onward]

end Counted

section Filled

theorem copyName_short {name : List Char} (short : (Utf8.encode name).length ≤ maxFieldName) :
    copyName name = Utf8.encode name :=
  List.take_of_length_le short

theorem copyName_inj {other name : List Char} (short : (Utf8.encode name).length < maxFieldName)
    (same : copyName other = Utf8.encode name) : other = name := by
  have length := congrArg List.length same
  rw [copyName, List.length_take] at length
  have whole : copyName other = Utf8.encode other := copyName_short (by omega)
  have decoded := Utf8.decode_encode other
  rw [← whole, same, Utf8.decode_encode] at decoded
  exact (Option.some.inj decoded).symm

/-- No name is written behind the names of the longest argument. -/
theorem lastName_eq_none {args : List Arg} {n i : Nat}
    (fit : ∀ arg ∈ args, (words isColon arg).length ≤ n) (behind : n ≤ i) :
    lastName args i = none := by
  have nothing : (args.filterMap fun arg => (words isColon arg)[i]?) = [] := by
    rw [List.filterMap_eq_nil_iff]
    exact fun arg member => List.getElem?_eq_none ((fit arg member).trans behind)
  rw [lastName, nothing, List.getLast?_nil]

variable {D : Type} [Zero D] [NatCast D] [LT D] [DecidableLT D] {numbers : CNumbers D}
  {options : ParsedOptions D} {args : List Arg} {arg : Arg}

theorem nbFields_eq (accepted : melissaGetOptions numbers args = some options)
    (one : (getoptLong serverSpec args).filterMap fieldOption = [arg]) :
    options.nbFields = countParts arg := by
  unfold melissaGetOptions at accepted
  split at accepted
  · exact (nomatch accepted)
  obtain ⟨parsed, read, checked⟩ := Option.bind_eq_some_iff.mp accepted
  have counted := run_oneField one read
  unfold getNbFields at counted
  split at counted
  · exact (nomatch counted)
  · rw [Option.some.inj counted]
    exact checkParsed_kept ParsedOptions.nbFields (withDefaultOperations_nbFields parsed)
      (fun _ => rfl) checked

/-- The table has an entry for each name of `-f`, and the names are in it. -/
def FillsTable (nbFields : Nat) (args : List Arg) (arg : Arg) : Prop :=
  nbFields = (words isColon arg).length ∧
    melissaGetFields (argvLeft args) nbFields =
      some ((words isColon arg).map fun name => some (Utf8.encode name))

/-- In the words that the first parser leaves, no argument of an `f` has more names than that of
`-f`, and the last one with a name at a position has the name that `-f` has there. -/
def KeepsNames (args : List Arg) (arg : Arg) : Prop :=
  (∀ other ∈ fieldArgs (argvLeft args), (words isColon other).length ≤ countParts arg) ∧
    ∀ i < countParts arg, lastName (fieldArgs (argvLeft args)) i = (words isColon arg)[i]?

theorem fillsTable_iff (accepted : melissaGetOptions numbers args = some options)
    (one : (getoptLong serverSpec args).filterMap fieldOption = [arg])
    (short : ∀ name ∈ words isColon arg, (Utf8.encode name).length < maxFieldName) :
    FillsTable options.nbFields args arg ↔
      [] ∉ arg.splitOnP isColon ∧ KeepsNames args arg := by
  rw [FillsTable, nbFields_eq accepted one, ← length_words_eq_iff, KeepsNames]
  change countParts arg = _ ∧ _ ↔ _ = countParts arg ∧ _
  rw [eq_comm (a := countParts arg)]
  refine and_congr_right fun counted => ?_
  rw [melissaGetFields, run_readField, getopt_fieldArgs, List.length_replicate, List.length_map]
  refine and_congr_right fun fit => ?_
  constructor
  · rintro ⟨-, entries⟩ i inside
    have entry := entries i
    rw [List.getElem?_replicate, if_pos inside, List.getElem?_map] at entry
    rw [← counted] at inside
    rw [List.getElem?_eq_getElem inside] at entry ⊢
    cases last : lastName (fieldArgs (argvLeft args)) i with
    | none =>
        rw [last] at entry
        exact (nomatch entry)
    | some name =>
        rw [last] at entry
        have same := Option.some.inj (Option.some.inj entry)
        rw [copyName_inj (short _ (List.getElem_mem inside)) same.symm]
  · intro names
    refine ⟨counted, fun i => ?_⟩
    rw [List.getElem?_map, List.getElem?_replicate]
    by_cases inside : i < countParts arg
    · rw [if_pos inside, names i inside]
      rw [← counted] at inside
      rw [List.getElem?_eq_getElem inside]
      have whole := copyName_short (Nat.le_of_lt (short _ (List.getElem_mem inside)))
      rw [entryAfter, whole]
      rfl
    · have behind := Nat.le_of_not_lt inside
      rw [if_neg inside, lastName_eq_none fit behind, entryAfter,
        List.getElem?_eq_none (counted ▸ behind)]
      rfl

theorem fieldArgs_plain {words : List Arg}
    (plain : ∀ word ∈ words, word ≠ ['-', '-'] ∧ behindF word = none) (rest : List Arg) :
    fieldArgs (words ++ rest) = fieldArgs rest := by
  induction words with
  | nil => rfl
  | cons word words ih =>
      rw [List.forall_mem_cons] at plain
      rw [List.cons_append, fieldArgs_none plain.1.1 plain.1.2, ih plain.2]

omit [Zero D] [NatCast D] [LT D] [DecidableLT D] in
/-- No other word has an `f` behind its dash. -/
theorem keepsNames_plain {front back : List Arg}
    (left : argvLeft args = front ++ "-f".toList :: arg :: back)
    (plain : ∀ word ∈ front ++ back, word ≠ ['-', '-'] ∧ behindF word = none) :
    KeepsNames args arg := by
  rw [List.forall_mem_append] at plain
  have alone : fieldArgs (argvLeft args) = [arg] := by
    have behind := fieldArgs_plain plain.2 []
    rw [List.append_nil] at behind
    rw [left, fieldArgs_plain plain.1, fieldArgs_next (by decide) (by decide), behind, fieldArgs]
  refine ⟨?_, fun i _ => ?_⟩
  · rw [alone]
    intro other member
    rw [List.mem_singleton.mp member, words, countParts, ← length_splitOnP]
    exact List.length_filter_le _ _
  · rw [alone, lastName_cons]
    rfl

end Filled

section Example

private def flagFirst : List Arg :=
  words isSpace
    "-o mean -p 2 -s 4 -t 3 --disable_fault_tolerance -f heat1:heat2 -n node1".toList

private def flagLast : List Arg :=
  words isSpace
    "-o mean -p 2 -s 4 -t 3 -f heat1:heat2 -n node1 --disable_fault_tolerance".toList

private def heatNames : Arg := "heat1:heat2".toList

private theorem heatNames_short :
    ∀ name ∈ words isColon heatNames, (Utf8.encode name).length < maxFieldName := by
  decide +kernel

/-- The field that the flag writes is written again. -/
theorem fillsTable_iff_flagFirst :
    ∃ options, melissaGetOptions intNumbers flagFirst = some options ∧
      FillsTable options.nbFields flagFirst heatNames := by
  have starts : (melissaGetOptions intNumbers flagFirst).isSome = true := by decide +kernel
  have one : (getoptLong serverSpec flagFirst).filterMap fieldOption = [heatNames] := by
    decide +kernel
  obtain ⟨options, accepted⟩ := Option.isSome_iff_exists.mp starts
  refine ⟨options, accepted, (fillsTable_iff accepted one heatNames_short).mpr ⟨?_, ?_, ?_⟩⟩
  · decide +kernel
  · decide +kernel
  · decide +kernel

/-- Behind `-f` the `f` of `--disable_fault_tolerance` gives the first field the name
`ault_tolerance`. -/
theorem not_fillsTable_flagLast :
    ¬ ∀ (args : List Arg) (arg : Arg) (options : ParsedOptions Int),
      melissaGetOptions intNumbers args = some options →
      (getoptLong serverSpec args).filterMap fieldOption = [arg] →
      (∀ name ∈ words isColon arg, (Utf8.encode name).length < maxFieldName) →
      FillsTable options.nbFields args arg := by
  intro always
  have starts : (melissaGetOptions intNumbers flagLast).isSome = true := by decide +kernel
  have one : (getoptLong serverSpec flagLast).filterMap fieldOption = [heatNames] := by
    decide +kernel
  have lost : melissaGetFields (argvLeft flagLast) 2 ≠
      some ((words isColon heatNames).map fun name => some (Utf8.encode name)) := by
    decide +kernel
  obtain ⟨options, accepted⟩ := Option.isSome_iff_exists.mp starts
  obtain ⟨counted, filled⟩ := always flagLast heatNames options accepted one heatNames_short
  rw [counted] at filled
  exact lost filled

end Example

end Melissa
