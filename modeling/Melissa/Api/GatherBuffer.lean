import Melissa.Base.FirstSeen
import Melissa.Base.Runs
import Mathlib.Algebra.GroupWithZero.Nat

/-! `buffer_data` of a client process: what `melissa_init` allocates for it, call after call, and
what `melissa_send` writes into it. -/

namespace Melissa

open FirstSeen Runs

section Client

inductive Coupling where
  | zmq
  | mpi
  | flowvr
  | other
  deriving DecidableEq, Repr

/-- The part of `global_data_t` that decides about the buffer; it is set by the first call. -/
structure ClientConfig where
  sobol : Bool
  learning : Nat
  nbParameters : Nat
  rank : Nat
  sobolRank : Nat
  coupling : Coupling
  alone : sobol = false → sobolRank = 0

/-- A call of `melissa_init`: the name as far as `strncmp` compares it, and the local sizes that
all ranks pass. -/
structure InitCall where
  name : String
  localVectSizes : List Nat
  deriving DecidableEq, Repr

def InitCall.globalVectSize (call : InitCall) : Nat := call.localVectSizes.sum

def InitCall.localVectSize (call : InitCall) (rank : Nat) : Nat := call.localVectSizes.getD rank 0

/-- `first_init`, `buff_size`, the bytes behind `buffer_data`, and the fields. -/
structure BufferState where
  firstInit : Bool
  buffSize : Nat
  allocated : Nat
  fields : List InitCall
  deriving DecidableEq, Repr

/-- The static variables before the first call. -/
def noBuffer : BufferState := { firstInit := true, buffSize := 0, allocated := 0, fields := [] }

/-- A number of doubles in bytes; none if it is no `int`, which `buff_size` is. -/
def bufferBytes (doubles : Nat) : Option Nat :=
  if doubles * 8 < 2 ^ 31 then some (doubles * 8) else none

/-- `malloc` in the first call, and `realloc` when the size that is tested is larger than the
buffer. -/
def growBuffer (tested needed : Nat) (state : BufferState) : Option BufferState :=
  if state.firstInit then
    (bufferBytes needed).map fun bytes => { state with buffSize := bytes, allocated := bytes }
  else do
    let size ← bufferBytes tested
    if size > state.buffSize then
      (bufferBytes needed).map fun bytes => { state with buffSize := bytes, allocated := bytes }
    else some state

/-- The end of `melissa_init_internal`. -/
def allocateBuffer (config : ClientConfig) (call : InitCall) (state : BufferState) :
    Option BufferState :=
  if config.sobol then
    if config.learning > 0 then
      if config.rank = 0 then
        if config.sobolRank = 0 then
          growBuffer ((config.nbParameters + 2) * call.globalVectSize)
            ((config.nbParameters + 2) * call.globalVectSize) state
        else
          -- tested for the size of the master, allocated for a member
          growBuffer ((config.nbParameters + 2) * call.globalVectSize) call.globalVectSize state
      else if state.firstInit then some { state with buffSize := 0, allocated := 8 }
      else some state
    else if config.sobolRank = 0 then
      growBuffer ((config.nbParameters + 2) * call.localVectSize config.rank)
        ((config.nbParameters + 2) * call.localVectSize config.rank) state
    else some state
  else if config.learning > 0 then
    if config.rank = 0 then growBuffer call.globalVectSize call.globalVectSize state
    else if state.firstInit then some { state with buffSize := 0, allocated := 0 }
    else some state
  else some state

/-- A field that exists is left alone. -/
def melissaInit (config : ClientConfig) (state : BufferState) (call : InitCall) :
    Option BufferState :=
  if call.name ∈ state.fields.map InitCall.name then some state
  else (allocateBuffer config call state).map fun state =>
    { state with firstInit := false, fields := state.fields ++ [call] }

/-- `local_vect_size` of `melissa_send` behind the gather of a learning study. -/
def sendVectSize (config : ClientConfig) (call : InitCall) : Nat :=
  if config.learning > 0 then if config.rank = 0 then call.globalVectSize else 0
  else call.localVectSize config.rank

/-- What `melissa_send` writes into `buffer_data`: where, and how many doubles. -/
def sendWrites (config : ClientConfig) (call : InitCall) : List (Nat × Nat) :=
  let size := sendVectSize config call
  (if config.learning > 0 ∧ config.rank = 0 then [(0, call.globalVectSize)] else []) ++
    if config.sobol = true ∧ config.sobolRank = 0 then
      match config.coupling with
      | .flowvr => [(size, (config.nbParameters + 1) * size)]
      | .zmq => (List.range (config.nbParameters + 1)).map fun i => ((i + 1) * size, size)
      | .mpi => [(0, (config.nbParameters + 2) * size)]
      | .other => []
    else []

def Fits (config : ClientConfig) (allocated : Nat) (call : InitCall) : Prop :=
  ∀ write ∈ sendWrites config call, (write.1 + write.2) * 8 ≤ allocated

/-- After each call the buffer has room for every field there is. -/
def AlwaysRoom (config : ClientConfig) (calls : List InitCall) : Prop :=
  ∀ front back, calls = front ++ back → ∃ state,
    run (melissaInit config) noBuffer front = some state ∧
      ∀ call ∈ state.fields, Fits config state.allocated call

/-- The doubles a process needs for a field. -/
def neededDoubles (config : ClientConfig) (call : InitCall) : Nat :=
  (if config.sobol then config.nbParameters + 2 else 1) *
    if config.learning > 0 then call.globalVectSize else call.localVectSize config.rank

def largest (sizes : List Nat) : Nat := sizes.foldl max 0

/-- The processes with the unequal test: rank 0 of a learning simulation that is not the
master. -/
def GathersForMaster (config : ClientConfig) : Prop :=
  config.sobol = true ∧ 0 < config.learning ∧ config.rank = 0 ∧ config.sobolRank ≠ 0

/-- The sizes of the fields that a list of calls initialises. -/
def fieldSizes (calls : List InitCall) : List Nat :=
  (firsts InitCall.name calls).map InitCall.globalVectSize

/-- A new field that passes the test is at least as large as all fields before it. -/
def NeverShrinks (config : ClientConfig) (calls : List InitCall) : Prop :=
  ∀ front call back, calls = front ++ call :: back → call.name ∉ front.map InitCall.name →
    (config.nbParameters + 2) * call.globalVectSize ≤ largest (fieldSizes front) ∨
      largest (fieldSizes front) ≤ call.globalVectSize

end Client

section Steps

variable {config : ClientConfig} {state state' : BufferState} {call : InitCall}

/-- One growth step. -/
theorem growBuffer_eq {tested needed : Nat} (representable : tested * 8 < 2 ^ 31)
    (smaller : needed ≤ tested) (state : BufferState) :
    growBuffer tested needed state =
      some (if state.firstInit = true ∨ state.buffSize < tested * 8
        then { state with buffSize := needed * 8, allocated := needed * 8 } else state) := by
  have test : bufferBytes tested = some (tested * 8) := if_pos representable
  have bytes : bufferBytes needed = some (needed * 8) := if_pos (by omega)
  rw [growBuffer, test, bytes]
  cases first : state.firstInit with
  | true => simp
  | false =>
      simp only [Bool.false_eq_true, if_false, false_or, Option.bind_eq_bind, Option.bind_some,
        Option.map_some, gt_iff_lt]
      split <;> rfl

theorem fits_of_needed {allocated : Nat} (room : neededDoubles config call * 8 ≤ allocated) :
    Fits config allocated call := by
  intro write member
  unfold sendWrites at member
  dsimp only at member
  rcases List.mem_append.mp member with gather | group
  · split at gather
    · rename_i root
      cases List.mem_singleton.mp gather
      refine Nat.le_trans (Nat.mul_le_mul_right 8 ?_) room
      rw [neededDoubles, if_pos root.1, Nat.zero_add]
      refine Nat.le_mul_of_pos_left _ ?_
      split <;> omega
    · cases gather
  · split at group
    · rename_i master
      have size : (config.nbParameters + 2) * sendVectSize config call ≤
          neededDoubles config call := by
        rw [neededDoubles, if_pos master.1]
        refine Nat.mul_le_mul_left _ ?_
        unfold sendVectSize
        split
        · split
          · exact Nat.le_refl _
          · exact Nat.zero_le _
        · exact Nat.le_refl _
      rw [Nat.add_mul, Nat.two_mul] at size
      refine Nat.le_trans (Nat.mul_le_mul_right 8 (Nat.le_trans ?_ size)) room
      split at group
      · cases List.mem_singleton.mp group
        rw [Nat.add_mul, Nat.one_mul]
        omega
      · obtain ⟨i, inside, rfl⟩ := List.mem_map.mp group
        have slot : i * sendVectSize config call ≤
            config.nbParameters * sendVectSize config call :=
          Nat.mul_le_mul_right _ (Nat.le_of_lt_succ (List.mem_range.mp inside))
        dsimp only
        rw [Nat.add_mul, Nat.one_mul]
        omega
      · cases List.mem_singleton.mp group
        dsimp only
        refine Nat.le_of_eq ?_
        rw [Nat.add_mul, Nat.two_mul, Nat.zero_add]
      · cases group
    · cases group

/-- The fields after a run, and what every new field leaves behind. -/
theorem run_melissaInit {calls : List InitCall} (Inv : BufferState → Prop)
    (start : Inv noBuffer)
    (step : ∀ call ∈ calls, ∀ state, Inv state → call.name ∉ state.fields.map InitCall.name →
      ∃ state', allocateBuffer config call state = some state' ∧ state'.fields = state.fields ∧
        Inv { state' with firstInit := false, fields := state.fields ++ [call] }) :
    ∃ state, run (melissaInit config) noBuffer calls = some state ∧
      state.fields = firsts InitCall.name calls ∧ Inv state := by
  induction calls using List.reverseRecOn with
  | nil => exact ⟨noBuffer, rfl, rfl, start⟩
  | append_singleton front call ih =>
      obtain ⟨state, reached, fields, inv⟩ :=
        ih fun call member => step call (List.mem_append_left _ member)
      have last := step call (List.mem_append_right _ List.mem_cons_self) state inv
      rw [run_concat, reached, Option.bind_some, firsts_concat_insert, insertFirst, ← fields,
        melissaInit]
      by_cases known : call.name ∈ state.fields.map InitCall.name
      · rw [if_pos known, if_pos known]
        exact ⟨state, rfl, rfl, inv⟩
      · obtain ⟨state', taken, same, after⟩ := last known
        rw [if_neg known, if_neg known, taken]
        rw [← same] at after
        exact ⟨_, rfl, congrArg (· ++ [call]) same, after⟩

end Steps

section Kinds

variable {config : ClientConfig} {calls : List InitCall}

/-- A process that needs nothing in the buffer. -/
def WritesNothing (config : ClientConfig) : Prop :=
  (0 < config.learning → config.rank ≠ 0) ∧
    (config.sobol = true → config.learning = 0 → config.sobolRank ≠ 0)

theorem fits_of_writesNothing (nothing : WritesNothing config) (allocated : Nat)
    (call : InitCall) : Fits config allocated call := by
  intro write member
  unfold sendWrites at member
  dsimp only at member
  rw [if_neg (fun root => nothing.1 root.1 root.2), List.nil_append] at member
  split at member
  · rename_i master
    have learning : 0 < config.learning := by
      by_contra off
      exact nothing.2 master.1 (by omega) master.2
    have size : sendVectSize config call = 0 := by
      rw [sendVectSize, if_pos learning, if_neg (nothing.1 learning)]
    rw [size] at member
    split at member
    · cases List.mem_singleton.mp member
      exact Nat.zero_le _
    · obtain ⟨i, _, rfl⟩ := List.mem_map.mp member
      exact Nat.zero_le _
    · cases List.mem_singleton.mp member
      exact Nat.zero_le _
    · cases member
  · cases member

theorem allocateBuffer_writesNothing (nothing : WritesNothing config) (call : InitCall)
    (state : BufferState) :
    ∃ state', allocateBuffer config call state = some state' ∧ state'.fields = state.fields := by
  unfold allocateBuffer
  split
  · rename_i sobol
    split
    · rename_i learning
      rw [if_neg (nothing.1 learning)]
      split
      · exact ⟨_, rfl, rfl⟩
      · exact ⟨_, rfl, rfl⟩
    · rename_i off
      rw [if_neg (nothing.2 sobol (by omega))]
      exact ⟨_, rfl, rfl⟩
  · split
    · rename_i learning
      rw [if_neg (nothing.1 learning)]
      split
      · exact ⟨_, rfl, rfl⟩
      · exact ⟨_, rfl, rfl⟩
    · exact ⟨_, rfl, rfl⟩

/-- All other processes test what they allocate. -/
theorem allocateBuffer_growing (writes : ¬ WritesNothing config)
    (other : ¬ GathersForMaster config) (call : InitCall) (state : BufferState) :
    allocateBuffer config call state =
      growBuffer (neededDoubles config call) (neededDoubles config call) state := by
  unfold allocateBuffer neededDoubles
  split
  · rename_i sobol
    split
    · rename_i learning
      have root : config.rank = 0 := by
        by_contra elsewhere
        exact writes ⟨fun _ => elsewhere, fun _ off => absurd learning (by omega)⟩
      have master : config.sobolRank = 0 := by
        by_contra member
        exact other ⟨sobol, learning, root, member⟩
      rw [if_pos root, if_pos master]
    · rename_i off
      have master : config.sobolRank = 0 := by
        by_contra member
        exact writes ⟨fun learning => absurd learning off, fun _ _ => member⟩
      rw [if_pos master]
  · rename_i alone
    split
    · rename_i learning
      have root : config.rank = 0 := by
        by_contra elsewhere
        exact writes ⟨fun _ => elsewhere, fun sobol => absurd sobol alone⟩
      rw [if_pos root, Nat.one_mul]
    · rename_i off
      exact absurd ⟨fun learning => absurd learning off, fun sobol => absurd sobol alone⟩ writes

theorem allocateBuffer_member (member : GathersForMaster config) (call : InitCall)
    (state : BufferState) :
    allocateBuffer config call state =
      growBuffer ((config.nbParameters + 2) * call.globalVectSize) call.globalVectSize state := by
  obtain ⟨sobol, learning, root, apart⟩ := member
  rw [allocateBuffer, if_pos sobol, if_pos learning, if_pos root, if_neg apart]

/-- Where the test is the size that is allocated, the buffer never gets too small. -/
theorem alwaysRoom_growing (writes : ¬ WritesNothing config) (other : ¬ GathersForMaster config)
    (representable : ∀ call ∈ calls, neededDoubles config call * 8 < 2 ^ 31) :
    AlwaysRoom config calls := by
  rintro front back rfl
  have grown := @run_melissaInit config front
    (fun state => (state.firstInit = true → state.fields = []) ∧
      state.allocated = state.buffSize ∧
      ∀ call ∈ state.fields, neededDoubles config call * 8 ≤ state.allocated)
    ⟨fun _ => rfl, rfl, by simp [noBuffer]⟩ ?_
  · obtain ⟨state, reached, _, _, _, room⟩ := grown
    exact ⟨state, reached, fun call member => fits_of_needed (room call member)⟩
  · rintro call member state ⟨first, same, room⟩ _
    have bytes := growBuffer_eq (representable call (List.mem_append_left _ member)) (Nat.le_refl _)
      state
    rw [allocateBuffer_growing writes other, bytes]
    refine ⟨_, rfl, by split <;> rfl, fun fresh => (nomatch fresh), by split <;> simp [same], ?_⟩
    intro field known
    rcases List.mem_append.mp known with old | new
    · split
      · rename_i test
        rcases test with begun | small
        · rw [first begun] at old
          cases old
        · have := room field old
          simp only
          omega
      · exact room field old
    · cases List.mem_singleton.mp new
      split
      · exact Nat.le_refl _
      · rename_i test
        have enough := not_or.mp test
        simp only
        omega

theorem alwaysRoom_writesNothing (nothing : WritesNothing config) (calls : List InitCall) :
    AlwaysRoom config calls := by
  rintro front back rfl
  obtain ⟨state, reached, _⟩ := @run_melissaInit config front (fun _ => True) trivial
    fun call _ state _ _ => by
      obtain ⟨state', taken, same⟩ := allocateBuffer_writesNothing nothing call state
      exact ⟨state', taken, same, trivial⟩
  exact ⟨state, reached, fun call _ => fits_of_writesNothing nothing _ call⟩

end Kinds

section Member

variable {config : ClientConfig} {calls : List InitCall}

/-- The doubles a member of a group holds after fields of these sizes. -/
def held (nbParameters : Nat) (sizes : List Nat) : Nat :=
  sizes.foldl (fun held size => if held < (nbParameters + 2) * size then size else held) 0

theorem held_concat (nbParameters : Nat) (sizes : List Nat) (size : Nat) :
    held nbParameters (sizes ++ [size]) =
      if held nbParameters sizes < (nbParameters + 2) * size then size
      else held nbParameters sizes := by
  rw [held, List.foldl_append]
  rfl

theorem largest_concat (sizes : List Nat) (size : Nat) :
    largest (sizes ++ [size]) = max (largest sizes) size := by
  rw [largest, List.foldl_append]
  rfl

theorem largest_le_iff {sizes : List Nat} {bound : Nat} :
    largest sizes ≤ bound ↔ ∀ size ∈ sizes, size ≤ bound := by
  induction sizes using List.reverseRecOn with
  | nil => simp [largest]
  | append_singleton front size ih =>
      rw [largest_concat, Nat.max_le, ih]
      simp only [List.mem_append, List.mem_singleton]
      constructor
      · rintro ⟨all, last⟩ other (earlier | rfl)
        · exact all other earlier
        · exact last
      · exact fun all => ⟨fun other earlier => all other (Or.inl earlier), all size (Or.inr rfl)⟩

theorem held_le_largest (nbParameters : Nat) (sizes : List Nat) :
    held nbParameters sizes ≤ largest sizes := by
  induction sizes using List.reverseRecOn with
  | nil => exact Nat.le_refl _
  | append_singleton front size ih =>
      rw [held_concat, largest_concat]
      split
      · exact Nat.le_max_right _ _
      · exact Nat.le_trans ih (Nat.le_max_left _ _)

theorem fieldSizes_concat (front : List InitCall) (call : InitCall) :
    fieldSizes (front ++ [call]) =
      if call.name ∈ front.map InitCall.name then fieldSizes front
      else fieldSizes front ++ [call.globalVectSize] := by
  rw [fieldSizes, firsts_concat]
  split
  · rfl
  · rw [List.map_append]
    rfl

theorem fits_member (member : GathersForMaster config) (allocated : Nat) (call : InitCall) :
    Fits config allocated call ↔ call.globalVectSize * 8 ≤ allocated := by
  obtain ⟨_, learning, root, apart⟩ := member
  have writes : sendWrites config call = [(0, call.globalVectSize)] := by
    rw [sendWrites]
    simp only [learning, root, apart, and_false, if_false, List.append_nil, and_self, if_true]
  rw [Fits, writes, List.forall_mem_singleton, Nat.zero_add]

/-- The buffer of a member after a list of calls. -/
theorem run_member (member : GathersForMaster config)
    (representable : ∀ call ∈ calls, neededDoubles config call * 8 < 2 ^ 31) :
    ∃ state, run (melissaInit config) noBuffer calls = some state ∧
      state.fields = firsts InitCall.name calls ∧
      state.allocated = held config.nbParameters (fieldSizes calls) * 8 := by
  have grown := @run_melissaInit config calls
    (fun state => (state.firstInit = true → state.fields = []) ∧
      state.allocated = state.buffSize ∧ state.allocated =
        held config.nbParameters (state.fields.map InitCall.globalVectSize) * 8)
    ⟨fun _ => rfl, rfl, rfl⟩ ?_
  · obtain ⟨state, reached, fields, _, _, bytes⟩ := grown
    rw [fields] at bytes
    exact ⟨state, reached, fields, bytes⟩
  · rintro call known state ⟨first, same, bytes⟩ _
    have whole := representable call known
    rw [neededDoubles, if_pos member.1, if_pos member.2.1] at whole
    have smaller : call.globalVectSize ≤ (config.nbParameters + 2) * call.globalVectSize :=
      Nat.le_mul_of_pos_left _ (Nat.succ_pos _)
    rw [allocateBuffer_member member, growBuffer_eq whole smaller]
    refine ⟨_, rfl, by split <;> rfl, fun fresh => (nomatch fresh), by split <;> simp [same], ?_⟩
    rw [List.map_append, List.map_singleton, held_concat]
    have begun : state.firstInit = true → held config.nbParameters
        (state.fields.map InitCall.globalVectSize) = 0 := by
      intro fresh
      rw [first fresh]
      rfl
    split
    · rename_i test
      split
      · rfl
      · rename_i large
        have fresh : state.firstInit = true := by
          rcases test with fresh | small
          · exact fresh
          · omega
        have none := begun fresh
        simp only
        omega
    · rename_i test
      have enough := not_or.mp test
      split
      · omega
      · exact bytes

theorem alwaysRoom_member (member : GathersForMaster config)
    (representable : ∀ call ∈ calls, neededDoubles config call * 8 < 2 ^ 31) :
    AlwaysRoom config calls ↔ ∀ front back, calls = front ++ back →
      largest (fieldSizes front) ≤ held config.nbParameters (fieldSizes front) := by
  refine forall₃_congr fun front back cut => ?_
  obtain ⟨state, reached, fields, bytes⟩ := run_member member
    fun call known => representable call (by rw [cut]; exact List.mem_append_left _ known)
  have same : (∀ call ∈ state.fields, Fits config state.allocated call) ↔
      largest (fieldSizes front) ≤ held config.nbParameters (fieldSizes front) := by
    rw [largest_le_iff, fieldSizes, List.forall_mem_map, fields]
    refine forall₂_congr fun call _ => ?_
    rw [fits_member member, bytes, fieldSizes]
    omega
  rw [← same, reached]
  simp only [Option.some.injEq, exists_eq_left']

/-- The buffer of a member stays the largest size as long as no smaller field passes the test. -/
theorem neverShrinks_iff :
    NeverShrinks config calls ↔ ∀ front back, calls = front ++ back →
      largest (fieldSizes front) ≤ held config.nbParameters (fieldSizes front) := by
  constructor
  · intro kept front
    induction front using List.reverseRecOn with
    | nil =>
        intro back _
        exact Nat.le_refl _
    | append_singleton front call ih =>
        intro back cut
        rw [List.append_assoc, List.singleton_append] at cut
        have before := ih (call :: back) cut
        rw [fieldSizes_concat]
        split
        · exact before
        · rename_i fresh
          rw [largest_concat, held_concat]
          have whole := Nat.le_antisymm before (held_le_largest config.nbParameters _)
          rw [← whole]
          rcases kept front call back cut fresh with small | large
          · rw [if_neg (Nat.not_lt_of_le small)]
            exact Nat.max_le.mpr ⟨Nat.le_refl _, Nat.le_trans
              (Nat.le_mul_of_pos_left _ (Nat.succ_pos _)) small⟩
          · split
            · exact Nat.max_le.mpr ⟨large, Nat.le_refl _⟩
            · rename_i test
              exact Nat.max_le.mpr ⟨Nat.le_refl _, Nat.le_trans
                (Nat.le_mul_of_pos_left _ (Nat.succ_pos _)) (Nat.le_of_not_lt test)⟩
  · intro room front call back cut fresh
    have before := room front (call :: back) cut
    have after := room (front ++ [call]) back (by rw [cut, List.append_assoc]; rfl)
    have whole := Nat.le_antisymm before (held_le_largest config.nbParameters _)
    rw [fieldSizes_concat, if_neg fresh, largest_concat, held_concat, ← whole] at after
    split at after
    · exact Or.inr (Nat.le_trans (Nat.le_max_left _ _) after)
    · rename_i test
      exact Or.inl (Nat.le_of_not_lt test)

end Member

section Iff

variable {config : ClientConfig} {calls : List InitCall}

/-- After each call the buffer has room for every field, exactly when the process is not rank 0
of a learning simulation that gathers for its master, or no later field lets it shrink. -/
theorem alwaysRoom_iff (representable : ∀ call ∈ calls, neededDoubles config call * 8 < 2 ^ 31) :
    AlwaysRoom config calls ↔ (GathersForMaster config → NeverShrinks config calls) := by
  by_cases member : GathersForMaster config
  · rw [alwaysRoom_member member representable, ← neverShrinks_iff]
    exact ⟨fun kept _ => kept, fun kept => kept member⟩
  · refine iff_of_true ?_ fun other => absurd other member
    by_cases nothing : WritesNothing config
    · exact alwaysRoom_writesNothing nothing calls
    · exact alwaysRoom_growing nothing member representable

/-- Rank 0 of a simulation of a learning Sobol study with one parameter that is not the master. -/
def memberConfig : ClientConfig :=
  { sobol := true, learning := 1, nbParameters := 1, rank := 0, sobolRank := 1, coupling := .zmq
    alone := fun off => absurd off (by decide) }

theorem alwaysRoom_iff_growingFields :
    AlwaysRoom memberConfig [⟨"heat", [10]⟩, ⟨"flow", [30]⟩] ↔
      (GathersForMaster memberConfig →
        NeverShrinks memberConfig [⟨"heat", [10]⟩, ⟨"flow", [30]⟩]) :=
  alwaysRoom_iff (by decide)

/-- A field of 100 values, then one of 50: the buffer is made smaller. -/
theorem not_alwaysRoom_smallerField :
    ¬ AlwaysRoom memberConfig [⟨"heat", [100]⟩, ⟨"flow", [50]⟩] := by
  intro room
  obtain ⟨state, reached, fits⟩ := room _ [] (List.append_nil _).symm
  have small : state.allocated = 400 := by
    have value := congrArg (Option.map BufferState.allocated) reached
    exact (Option.some.inj value).symm
  have heat : (⟨"heat", [100]⟩ : InitCall) ∈ state.fields := by
    have value := congrArg (Option.map BufferState.fields) reached
    rw [← Option.some.inj value]
    exact List.mem_cons_self
  have written := fits _ heat (0, 100) (by decide)
  rw [small] at written
  exact absurd written (by decide)

end Iff

end Melissa
