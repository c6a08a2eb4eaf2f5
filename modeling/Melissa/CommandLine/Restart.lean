import Mathlib.Data.List.Infix
import Mathlib.Logic.Function.Iterate
import Melissa.Base.GetoptWords
import Melissa.CommandLine.Agree

/-! `Server.restart`: the option that it puts behind `cmd_opt`, and what the server reads then. -/

namespace Melissa

open Getopt Runs Text

section Append

/-- What `Server.restart` does to `cmd_opt`, without assimilation. -/
def serverRestart (cmdOpt : List Char) : List Char :=
  if "-r".toList <:+: cmdOpt then cmdOpt else cmdOpt ++ " -r . ".toList

theorem serverRestart_inside {cmdOpt : List Char} (inside : "-r".toList <:+: cmdOpt) :
    serverRestart cmdOpt = cmdOpt :=
  if_pos inside

theorem infix_serverRestart (cmdOpt : List Char) : "-r".toList <:+: serverRestart cmdOpt := by
  unfold serverRestart
  split
  · rename_i inside
    exact inside
  · exact ⟨cmdOpt ++ [' '], " . ".toList, by rw [List.append_assoc, List.append_assoc]; rfl⟩

/-- Further restarts change nothing. -/
theorem serverRestart_iterate {k : Nat} (again : 1 ≤ k) (cmdOpt : List Char) :
    serverRestart^[k] cmdOpt = serverRestart cmdOpt := by
  obtain ⟨n, rfl⟩ := Nat.exists_eq_add_of_le' again
  have fixed := serverRestart_inside (infix_serverRestart cmdOpt)
  rw [Function.iterate_succ_apply, Function.iterate_fixed fixed]

theorem words_serverRestart {cmdOpt : List Char} (outside : ¬ "-r".toList <:+: cmdOpt) :
    words isSpace (serverRestart cmdOpt) =
      words isSpace cmdOpt ++ ["-r".toList, ".".toList] := by
  have tail : words isSpace "-r . ".toList = ["-r".toList, ".".toList] := by decide
  rw [serverRestart, if_neg outside]
  change words isSpace (cmdOpt ++ ' ' :: "-r . ".toList) = _
  rw [words_append_cons rfl, tail]

end Append

section Read

/-- Results of `getopt_long` that make the server exit. -/
def Exits (found : List (Found OptVal)) : Prop :=
  .unknown ∈ found ∨ .option (.letter 'h') none ∈ found

theorem Exits.append {front : List (Found OptVal)} (exits : Exits front)
    (back : List (Found OptVal)) : Exits (front ++ back) :=
  exits.imp (List.mem_append_left back) (List.mem_append_left back)

theorem Exits.behind {back : List (Found OptVal)} (exits : Exits back)
    (front : List (Found OptVal)) : Exits (front ++ back) :=
  exits.imp (List.mem_append_right front) (List.mem_append_right front)

theorem shortTakesArg_flag {c : Char} (flag : shortTakesArg serverSpec.opts c = some false) :
    c = 'h' := by
  have only : ∀ c ∈ serverSpec.opts, shortTakesArg serverSpec.opts c = some false → c = 'h' :=
    List.all_iff_forall_prop.mp (by decide)
  exact only c (mem_of_shortTakesArg flag) flag

/-- A word finds the option `-r`, or it waits for the directory. -/
def FindsRestart (scanned : List (Found OptVal) × Option OptVal) : Prop :=
  (∃ arg, .option (.letter 'r') arg ∈ scanned.1) ∨ scanned.2 = some (.letter 'r')

theorem scanShort_restart {cs : List Char} (finds : FindsRestart (scanShort serverSpec cs)) :
    cs.head? = some 'r' ∨ Exits (scanShort serverSpec cs).1 := by
  cases cs with
  | nil => rcases finds with ⟨arg, member⟩ | waits <;> contradiction
  | cons c rest =>
      rw [scanShort] at finds ⊢
      cases known : shortTakesArg serverSpec.opts c with
      | none => exact Or.inr (Or.inl List.mem_cons_self)
      | some takes =>
          cases takes with
          | false =>
              rw [shortTakesArg_flag known]
              exact Or.inr (Or.inr List.mem_cons_self)
          | true =>
              rw [known] at finds
              dsimp only at finds
              left
              split at finds
              · rcases finds with ⟨arg, member⟩ | waits
                · cases member
                · cases waits
                  rfl
              · rcases finds with ⟨arg, member⟩ | waits
                · cases List.mem_singleton.mp member
                  rfl
                · cases waits

theorem scanLong_restart {name : List Char} (finds : FindsRestart (scanLong serverSpec name)) :
    name.head? = some 'r' := by
  have named : ∀ option ∈ longOpts, option.val = .letter 'r' → option.name = "restart" := by
    decide
  have unnamed : findLong longOpts [] = none := by decide
  have begins : ∀ option, findLong longOpts (name.takeWhile (· != '=')) = some option →
      option.val = .letter 'r' → name.head? = some 'r' := by
    intro option known isRestart
    obtain ⟨member, front⟩ := findLong_eq_some known
    rw [named option member isRestart] at front
    cases name with
    | nil =>
        rw [List.takeWhile_nil, unnamed] at known
        exact (nomatch known)
    | cons c rest =>
        rw [List.takeWhile_cons] at front known
        split at front
        · obtain ⟨back, whole⟩ := front
          exact congrArg List.head? whole
        · rename_i equals
          rw [if_neg equals, unnamed] at known
          exact (nomatch known)
  obtain ⟨option, known, isRestart⟩ := scanLong_val finds
  exact begins option known isRestart

/-- The option `-r` is written in a word that has `-r` in it. -/
theorem scanWord_restart {word : Arg} (finds : FindsRestart (scanWord serverSpec word)) :
    "-r".toList <:+: word ∨ Exits (scanWord serverSpec word).1 := by
  rcases word_cases word with rfl | ⟨name, filled, rfl⟩ | ⟨c, cs, notLong, rfl⟩ | operand
  · rcases finds with ⟨arg, member⟩ | waits
    · exact (nomatch member)
    · exact (nomatch waits)
  · rw [scanWord_long filled] at finds
    obtain ⟨rest, rfl⟩ := List.head?_eq_some_iff.mp (scanLong_restart finds)
    exact Or.inl ⟨['-'], rest, rfl⟩
  · rw [scanWord_short notLong] at finds ⊢
    refine (scanShort_restart finds).imp_left fun first => ?_
    cases first
    exact ⟨[], cs, rfl⟩
  · rw [scanWord_operand operand] at finds
    rcases finds with ⟨arg, member⟩ | waits
    · exact (nomatch member)
    · exact (nomatch waits)

theorem getoptLong_restart {args : List Arg} {arg : Option Arg}
    (found : .option (.letter 'r') arg ∈ getoptLong serverSpec args) :
    (∃ word ∈ args, "-r".toList <:+: word) ∨ Exits (getoptLong serverSpec args) := by
  revert found
  induction args using scan_induction serverSpec with
  | nil => exact fun found => (nomatch found)
  | dashes rest =>
      rw [getoptLong_dashes]
      exact fun found => (nomatch found)
  | alone word rest notEnd whole ih =>
      rw [getoptLong_alone notEnd whole, List.mem_append]
      rintro (here | later)
      · exact (scanWord_restart (Or.inl ⟨arg, here⟩)).imp
          (fun inside => ⟨word, List.mem_cons_self, inside⟩) fun exits => exits.append _
      · refine (ih later).imp ?_ fun exits => exits.behind _
        exact fun ⟨other, member, inside⟩ => ⟨other, List.mem_cons_of_mem _ member, inside⟩
  | last word val pending =>
      intro _
      rw [getoptLong_last pending]
      exact Or.inr (Or.inl (List.mem_append_right _ List.mem_cons_self))
  | withArg word val next rest pending ih =>
      rw [getoptLong_withArg pending, List.mem_append, List.mem_cons]
      have here : FindsRestart (scanWord serverSpec word) →
          (∃ other ∈ word :: next :: rest, "-r".toList <:+: other) ∨
            Exits ((scanWord serverSpec word).1 ++ .option val (some next) ::
              getoptLong serverSpec rest) := fun finds =>
        (scanWord_restart finds).imp (fun inside => ⟨word, List.mem_cons_self, inside⟩)
          fun exits => exits.append _
      rintro (first | same | later)
      · exact here (Or.inl ⟨arg, first⟩)
      · cases same
        exact here (Or.inr pending)
      · refine (ih later).imp ?_ fun exits => (exits.behind [.option val (some next)]).behind _
        exact fun ⟨other, member, inside⟩ =>
          ⟨other, List.mem_cons_of_mem _ (List.mem_cons_of_mem _ member), inside⟩

end Read

section Options

variable {D : Type} {numbers : CNumbers D} {options options' : ParsedOptions D}

/-- The options with another restart. -/
def ParsedOptions.withRestart (options : ParsedOptions D) (dir : List Char) (restart : Nat) :
    ParsedOptions D :=
  { options with restartDir := dir, restart := restart }

theorem restartArg_restart {arg : List Char} {restart : Nat}
    (read : restartArg options arg restart = some options') : options'.restart = restart := by
  obtain ⟨dir, _, rfl⟩ := Option.map_eq_some_iff.mp read
  rfl

variable [Zero D]

/-- The other options leave `restart` alone, or set it to 2. -/
theorem readOption_restart {found : Found OptVal}
    (read : readOption numbers options found = some options')
    (other : ∀ arg, found ≠ .option (.letter 'r') arg) :
    options'.restart = options.restart ∨ options'.restart = 2 := by
  unfold readOption at read
  split at read
  · exact absurd rfl (other _)
  · exact Or.inr (restartArg_restart read)
  any_goals
    refine Or.inl (map_kept ParsedOptions.restart ?_ read)
    exact fun _ => rfl
  · exact Or.inl (getOperations_kept ParsedOptions.restart (fun _ => rfl) read)
  all_goals first
    | exact Or.inl (congrArg ParsedOptions.restart (Option.some.inj read)).symm
    | exact (nomatch read)

theorem not_exits_of_run {found : List (Found OptVal)}
    (read : run (readOption numbers) options found = some options') : ¬ Exits found := by
  induction found generalizing options with
  | nil => rintro (unknown | help) <;> contradiction
  | cons e found ih =>
      obtain ⟨next, first, onward⟩ := Option.bind_eq_some_iff.mp read
      rintro (unknown | help)
      · rcases List.mem_cons.mp unknown with rfl | later
        · exact (nomatch first)
        · exact ih onward (Or.inl later)
      · rcases List.mem_cons.mp help with rfl | later
        · exact (nomatch first)
        · exact ih onward (Or.inr later)

/-- Without an option `-r` the server does not restart with a plain checkpoint. -/
theorem run_restart {found : List (Found OptVal)} (fresh : options.restart ≠ 1)
    (noRestart : ∀ arg, .option (.letter 'r') arg ∉ found)
    (read : run (readOption numbers) options found = some options') : options'.restart ≠ 1 := by
  have kept : ∀ before, ∀ e ∈ found, ∀ after, before.restart ≠ 1 →
      readOption numbers before e = some after → after.restart ≠ 1 := by
    intro before e member after start step
    have other : ∀ arg, e ≠ .option (.letter 'r') arg := by
      rintro arg rfl
      exact noRestart arg member
    rcases readOption_restart step other with same | two
    · rw [same]
      exact start
    · rw [two]
      decide
  exact @run_invariant_of_mem _ _ _ (fun options => options.restart ≠ 1) _ _ _ kept fresh read

theorem getoptLong_restartWords :
    getoptLong serverSpec ["-r".toList, ".".toList] =
      [.option (.letter 'r') (some ".".toList)] :=
  getoptLong_short serverSpec (by decide) (by decide) ".".toList []

theorem readOption_here (options : ParsedOptions D) :
    readOption numbers options (.option (.letter 'r') (some ".".toList)) =
      some (options.withRestart ".".toList 1) := by
  have short : (Utf8.encode ".".toList).length < 256 := by decide
  rw [readOption, restartArg, copyArg, if_pos short]
  rfl

end Options

section Check

variable {D : Type}

theorem withDefaultOperations_withRestart (options : ParsedOptions D) (dir : List Char)
    (restart : Nat) :
    withDefaultOperations (options.withRestart dir restart) =
      (withDefaultOperations options).withRestart dir restart := by
  unfold withDefaultOperations
  rw [apply_ite fun options : ParsedOptions D => options.withRestart dir restart]
  rfl

theorem withDefaultOperations_restart (options : ParsedOptions D) :
    (withDefaultOperations options).restart = options.restart := by
  unfold withDefaultOperations
  split <;> rfl

variable [NatCast D] [LT D] [DecidableLT D]

/-- The check does not look at the restart. -/
theorem checkParsed_withRestart (options : ParsedOptions D) {dir : List Char} (filled : dir ≠ [])
    (restart : Nat) :
    checkParsed (options.withRestart dir restart) =
      (checkParsed options).map fun checked => checked.withRestart dir restart := by
  unfold checkParsed
  rw [withDefaultOperations_withRestart]
  dsimp only
  change (if refused (withDefaultOperations options) = true then none
    else some (correctValues ((withDefaultOperations options).withRestart dir restart))) = _
  cases refused (withDefaultOperations options) with
  | true => rfl
  | false =>
      have corrected :
          correctValues ((withDefaultOperations options).withRestart dir restart) =
            (correctValues (withDefaultOperations options)).withRestart dir restart := by
        unfold correctValues ParsedOptions.withRestart
        dsimp only
        rw [if_neg filled]
      simp only [Bool.false_eq_true, if_false, corrected, Option.map_some]

theorem checkParsed_restart {options checked : ParsedOptions D}
    (accepted : checkParsed options = some checked) : checked.restart = options.restart :=
  checkParsed_kept ParsedOptions.restart (withDefaultOperations_restart options) (fun _ => rfl)
    accepted

end Check

section Told

variable {D : Type} [NatCast D] [Zero D] [LT D] [DecidableLT D] {numbers : CNumbers D}

/-- The words of the last `cmd_opt` are those of the first one and `-r .`, and the server restarts
in the current directory. -/
def ToldToRestart (numbers : CNumbers D) (cmdOpt final : List Char) : Prop :=
  words isSpace final = words isSpace cmdOpt ++ ["-r".toList, ".".toList] ∧
    ∃ options, melissaGetOptions numbers (words isSpace final) = some options ∧
      options.restart = 1 ∧ options.restartDir = ".".toList

theorem melissaGetOptions_eq_some {args : List Arg} {options : ParsedOptions D} :
    melissaGetOptions numbers args = some options ↔ args ≠ [] ∧
      ∃ parsed, run (readOption numbers) initOptions (getoptLong serverSpec args) = some parsed ∧
        checkParsed parsed = some options := by
  rw [melissaGetOptions]
  split
  · rename_i empty
    constructor
    · intro same
      cases same
    · intro both
      exact absurd empty both.1
  · rename_i nonempty
    rw [Option.bind_eq_some_iff]
    exact ⟨fun parsed => ⟨nonempty, parsed⟩, fun both => both.2⟩

omit [LT D] [DecidableLT D] in
/-- Without `-r` in its words the server starts afresh, or from `-m`. -/
theorem restart_ne_one {args : List Arg} {parsed : ParsedOptions D}
    (outside : ∀ word ∈ args, ¬ "-r".toList <:+: word)
    (read : run (readOption numbers) initOptions (getoptLong serverSpec args) = some parsed) :
    parsed.restart ≠ 1 := by
  refine run_restart (show (0 : Nat) ≠ 1 by decide) (fun arg found => ?_) read
  rcases getoptLong_restart found with ⟨word, member, inside⟩ | exits
  · exact outside word member inside
  · exact not_exits_of_run read exits

omit [LT D] [DecidableLT D] in
/-- The same when the last option takes the new `-r` for its argument. -/
theorem restart_ne_one_taken {args : List Arg} {front : List (Found OptVal)} {val : OptVal}
    {parsed : ParsedOptions D} (outside : ∀ word ∈ args, ¬ "-r".toList <:+: word)
    (taken : ∀ arg more, getoptLong serverSpec (args ++ arg :: more) =
      front ++ .option val (some arg) :: getoptLong serverSpec more)
    (read : run (readOption numbers) initOptions
      (front ++ [.option val (some "-r".toList)]) = some parsed) : parsed.restart ≠ 1 := by
  refine run_restart (show (0 : Nat) ≠ 1 by decide) (fun arg found => ?_) read
  -- any other word in the place of `-r` is an argument of the same option
  have other := taken ".".toList []
  have inside :
      ∃ arg, .option (.letter 'r') arg ∈ getoptLong serverSpec (args ++ [".".toList]) := by
    rw [other]
    rcases List.mem_append.mp found with early | last
    · exact ⟨arg, List.mem_append_left _ early⟩
    · cases List.mem_singleton.mp last
      exact ⟨_, List.mem_append_right _ List.mem_cons_self⟩
  obtain ⟨arg', found'⟩ := inside
  rcases getoptLong_restart found' with ⟨word, member, here⟩ | exits
  · rcases List.mem_append.mp member with old | new
    · exact outside word old here
    · rw [List.mem_singleton.mp new] at here
      exact absurd here (by decide)
  · refine not_exits_of_run read ?_
    rw [other] at exits
    refine exits.imp ?_ ?_
    · intro unknown
      rcases List.mem_append.mp unknown with early | last
      · exact List.mem_append_left _ early
      · exact (nomatch List.mem_singleton.mp last)
    · intro help
      rcases List.mem_append.mp help with early | last
      · exact List.mem_append_left _ early
      · exact (nomatch List.mem_singleton.mp last)

omit [Zero D] in
/-- The server does not start without a sample. -/
theorem checkParsed_initOptions : checkParsed (initOptions : ParsedOptions D) = none := by
  have defaults : withDefaultOperations (initOptions : ParsedOptions D) =
      { initOptions with meanOp := true, varianceOp := true } :=
    if_pos ⟨rfl, rfl, rfl, rfl, rfl, rfl, rfl, rfl, rfl⟩
  have bad : refused (withDefaultOperations (initOptions : ParsedOptions D)) = true := by
    rw [defaults]
    rfl
  rw [checkParsed, bad, if_pos rfl]

/-- A command line that is read to its end is accepted with `-r .` behind it if it is accepted
by itself. -/
theorem melissaGetOptions_restart {args : List Arg}
    (whollyRead : ∀ more, getoptLong serverSpec (args ++ more) =
      getoptLong serverSpec args ++ getoptLong serverSpec more) :
    melissaGetOptions numbers (args ++ ["-r".toList, ".".toList]) =
      (melissaGetOptions numbers args).map fun options => options.withRestart ".".toList 1 := by
  have checked : ∀ options : ParsedOptions D,
      checkParsed (options.withRestart ".".toList 1) =
        (checkParsed options).map fun options => options.withRestart ".".toList 1 :=
    fun options => checkParsed_withRestart options (by decide) 1
  have longer : args ++ ["-r".toList, ".".toList] ≠ [] :=
    List.append_ne_nil_of_right_ne_nil _ (List.cons_ne_nil _ _)
  rw [melissaGetOptions, melissaGetOptions, if_neg longer, whollyRead, getoptLong_restartWords,
    run_concat, Option.bind_assoc]
  split
  · rename_i empty
    rw [empty, getoptLong, run_nil, Option.bind_some, readOption_here, Option.bind_some, checked,
      checkParsed_initOptions]
  · rw [Option.map_bind]
    refine Option.bind_congr fun options _ => ?_
    rw [readOption_here, Option.bind_some, checked]
    rfl

/-- A server that restarts has read all words in front of the new option. -/
theorem accepted_of_restart {args : List Arg} {options : ParsedOptions D}
    (outside : ∀ word ∈ args, ¬ "-r".toList <:+: word)
    (accepted : melissaGetOptions numbers (args ++ ["-r".toList, ".".toList]) = some options)
    (restart : options.restart = 1) :
    (melissaGetOptions numbers args).isSome = true ∧ endedByDashes serverSpec args = false := by
  obtain ⟨-, parsed, read, checked⟩ := melissaGetOptions_eq_some.mp accepted
  rw [checkParsed_restart checked] at restart
  cases ended : endedByDashes serverSpec args with
  | true =>
      rw [getoptLong_append_ended ended] at read
      exact absurd restart (restart_ne_one outside read)
  | false =>
      refine ⟨?_, rfl⟩
      rcases getoptLong_append ended with whollyRead | ⟨front, val, -, taken⟩
      · rw [melissaGetOptions_restart whollyRead] at accepted
        rw [← Option.isSome_map, accepted]
        rfl
      · rw [taken] at read
        exact absurd restart (restart_ne_one_taken outside taken read)

theorem restart_of_accepted {args : List Arg} {options : ParsedOptions D}
    (accepted : melissaGetOptions numbers args = some options)
    (unended : endedByDashes serverSpec args = false) :
    melissaGetOptions numbers (args ++ ["-r".toList, ".".toList]) =
      some (options.withRestart ".".toList 1) := by
  obtain ⟨-, parsed, read, -⟩ := melissaGetOptions_eq_some.mp accepted
  rcases getoptLong_append unended with whollyRead | ⟨front, val, waiting, -⟩
  · rw [melissaGetOptions_restart whollyRead, accepted, Option.map_some]
  · rw [waiting] at read
    exact absurd (Or.inl (List.mem_append_right _ List.mem_cons_self)) (not_exits_of_run read)

/-- `Server.restart` tells the server to restart exactly when `cmd_opt` has no `-r` anywhere in
it, the server takes it as it is, and no `--` stands in front of the new option. -/
theorem toldToRestart_iff {study : LauncherStudy D} {numerals : Numerals D}
    {nodeName : List Char} :
    ∀ cmdOpt ∈ createOptions numerals nodeName study, ∀ k, 1 ≤ k →
      (ToldToRestart numbers cmdOpt (serverRestart^[k] cmdOpt) ↔
        ¬ "-r".toList <:+: cmdOpt ∧
          (melissaGetOptions numbers (words isSpace cmdOpt)).isSome = true ∧
            endedByDashes serverSpec (words isSpace cmdOpt) = false) := by
  intro cmdOpt _ k again
  rw [serverRestart_iterate again, ToldToRestart]
  by_cases inside : "-r".toList <:+: cmdOpt
  · refine iff_of_false ?_ fun all => all.1 inside
    rintro ⟨longer, _⟩
    rw [serverRestart_inside inside] at longer
    exact absurd (congrArg List.length longer) (by
      rw [List.length_append]
      exact Nat.ne_of_lt (Nat.lt_add_of_pos_right (by decide)))
  have outside : ∀ word ∈ words isSpace cmdOpt, ¬ "-r".toList <:+: word := fun word member here =>
    inside (here.trans (infix_of_mem_words member))
  rw [words_serverRestart inside]
  constructor
  · rintro ⟨-, options, accepted, restart, -⟩
    exact ⟨inside, accepted_of_restart outside accepted restart⟩
  · rintro ⟨-, accepted, unended⟩
    obtain ⟨options, accepted⟩ := Option.isSome_iff_exists.mp accepted
    exact ⟨rfl, _, restart_of_accepted accepted unended, rfl, rfl⟩

end Told

section Created

variable {D : Type} {numerals : Numerals D} {nodeName cmdOpt : List Char}
  {study : LauncherStudy D}

theorem endedByDashes_pairs {pairs : List ((String × OptVal) × Arg)}
    (written : ∀ pair ∈ pairs, pair.1 ∈ writtenOptions) (rest : List Arg) :
    endedByDashes serverSpec (pairWords pairs ++ rest) = endedByDashes serverSpec rest := by
  have takesNext : ∀ option ∈ writtenOptions,
      (scanWord serverSpec option.1.toList).2 = some option.2 := by
    decide
  induction pairs with
  | nil => rfl
  | cons pair pairs ih =>
      rw [List.forall_mem_cons] at written
      have first := endedByDashes_withArg (takesNext pair.1 written.1) pair.2
        (pairWords pairs ++ rest)
      rw [ih written.2] at first
      exact first

/-- With arguments that are words, and a path of one word at most, no `--` ends the options that
`create_options` writes. -/
theorem endedByDashes_created (created : Created numerals nodeName study cmdOpt)
    (args : ∀ pair ∈ serverPairs numerals nodeName study, IsWord isSpace pair.2)
    (path : (words isSpace (study.stdyOpt.nnPath.getD [])).length ≤ 1) :
    endedByDashes serverSpec (words isSpace cmdOpt) = false := by
  have written := serverPairs_written numerals nodeName study
  have fault : endedByDashes serverSpec (faultWords study.stdyOpt) = false := by
    unfold faultWords
    split
    · decide
    · rfl
  rw [created.words, flatMap_pairWords written args, List.append_assoc,
    endedByDashes_pairs written, learnWords]
  split
  · cases shape : words isSpace (study.stdyOpt.nnPath.getD []) with
    | nil =>
        unfold faultWords
        split <;> decide
    | cons nnPath more =>
        rw [shape, List.length_cons] at path
        have alone : more = [] := List.length_eq_zero_iff.mp (by omega)
        rw [alone]
        exact fault
  · exact fault

end Created

section Example

/-- A study of the mean of one field. -/
private def meanOfHeat : LauncherStudy Int :=
  { stdyOpt :=
      { samplingSize := 4, nbTimesteps := 3, fieldNames := ["heat".toList]
        checkpointInterval := 300, simulationTimeout := 400, verbosity := some 2
        batchSize := none, sendPort := some 5556, recvPort := some 5555, respPort := some 5554
        dataPort := some 2006, learning := some false, nnPath := none
        disableFaultTolerance := some false, thresholdValue := none, thresholdValues := none
        quantileValue := none, quantileValues := none }
    mlStats := [("mean", .flag true)]
    usrFunc := []
    nbParam := 2 }

private def heatLine : List Char :=
  "-o mean -p 2 -s 4 -t 3 -q 0 -e 0 -c 300 -w 400 -f heat -v 2".toList ++
    " --txt_push_port 5555 --txt_pull_port 5556".toList ++
    " --txt_req_port 5554 --data_port 2006 -n node1".toList

private theorem createOptions_heat :
    heatLine ∈ createOptions intNumerals "node1".toList meanOfHeat := by
  decide +kernel

theorem toldToRestart_iff_twice :
    ToldToRestart intNumbers heatLine (serverRestart^[2] heatLine) := by
  have accepted : (melissaGetOptions intNumbers (words isSpace heatLine)).isSome = true := by
    decide +kernel
  exact (toldToRestart_iff heatLine createOptions_heat 2 (by decide)).mpr
    ⟨by decide +kernel, accepted, by decide +kernel⟩

/-- On the host `node-r1` the server is not told. -/
theorem not_toldToRestart_host :
    ¬ ∀ (study : LauncherStudy Int) (nodeName : List Char), IsWord isSpace nodeName →
      ∀ cmdOpt ∈ createOptions intNumerals nodeName study, ∀ k, 1 ≤ k →
        ToldToRestart intNumbers cmdOpt (serverRestart^[k] cmdOpt) := by
  intro always
  have created : ∃ cmdOpt ∈ createOptions intNumerals "node-r1".toList meanOfHeat,
      "-r".toList <:+: cmdOpt := by
    have found : ((createOptions intNumerals "node-r1".toList meanOfHeat).map fun cmdOpt =>
        decide ("-r".toList <:+: cmdOpt)) = some true := by decide +kernel
    obtain ⟨cmdOpt, created, inside⟩ := Option.map_eq_some_iff.mp found
    exact ⟨cmdOpt, created, of_decide_eq_true inside⟩
  obtain ⟨cmdOpt, created, inside⟩ := created
  have word : IsWord isSpace "node-r1".toList :=
    ⟨by decide, List.all_iff_forall_prop.mp (by decide)⟩
  obtain ⟨longer, _⟩ := always meanOfHeat "node-r1".toList word cmdOpt created 1 (by decide)
  rw [Function.iterate_one, serverRestart_inside inside] at longer
  exact absurd (congrArg List.length longer) (by
    rw [List.length_append]
    exact Nat.ne_of_lt (Nat.lt_add_of_pos_right (by decide)))

end Example

end Melissa
