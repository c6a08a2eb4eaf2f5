import Melissa.OrderFree
import Melissa.Output.NoMpi
import Melissa.Study.Pieces

/-! A field spread over the server ranks: what `melissa_write_stats_seq` gathers from all of them
is what one structure with the whole field would have written. -/

namespace Melissa

open Arrays

section Distribution

/-- How the elements of a field are spread over the server ranks and there over the client ranks,
in the order in which they are gathered. -/
structure Distribution (n : Nat) where
  nbServers : Nat
  nbClients : Nat
  piece : Nat → Nat → Piece n
  cover : (List.range nbServers).flatMap (fun s =>
    (List.range nbClients).flatMap fun r => (piece s r).indices) = List.range n

variable {α : Type} {n : Nat}

/-- Gathering the pieces of a vector gives the vector. -/
theorem writtenBuffer_pieces (distribution : Distribution n) (fresh : Nat → Nat → α)
    {values : List α} (length : values.length = n) :
    writtenBuffer fresh ((List.range distribution.nbServers).map fun s =>
      (List.range distribution.nbClients).map fun r => (distribution.piece s r).take values) =
        values := by
  calc
    _ = (List.range distribution.nbServers).flatMap fun s =>
        (List.range distribution.nbClients).flatMap fun r =>
          (distribution.piece s r).take values := by
      rw [writtenBuffer_eq, List.map_map]
      rfl
    _ = pick values ((List.range distribution.nbServers).flatMap fun s =>
        (List.range distribution.nbClients).flatMap fun r => (distribution.piece s r).indices) := by
      simp only [Piece.take_eq_pick _ length, pick_flatMap]
    _ = values := by rw [distribution.cover, ← length, pick_range]

end Distribution

section Gathered

variable {D α : Type}

/-- The vector `melissa_write_stats_seq` hands to `write_output_d` or to `write_output_i` on rank 0,
from the structures of a field on all server ranks. `fresh s` is what stands in the allocated
buffer of rank `s`, as far as the vector reaches. -/
def gatheredVector (fresh : Nat → Nat → α) (copied : MelissaData D → Option (List α))
    (ranks : List (List (MelissaData D))) : Option (List α) := do
  let localVectSizes := ranks.map fun array => (array.map MelissaData.vectSize).sum
  let buffers ← (ranks.mapIdx fun s array =>
    copyStructures copied array 0 ((List.range localVectSizes.sum).map (fresh s))).mapM id
  some (dgatherData localVectSizes buffers (ranks.length - 1)).2

def gatheredOutput (stale : Nat → StaleBuffer D) (fileName : String) (source : StatSource D)
    (t : Nat) (ranks : List (List (MelissaData D))) : Option (OutputVector D) :=
  match source with
  | .doubles copied =>
      (gatheredVector (fun s => (stale s).doubles fileName) (copied t) ranks).map .doubles
  | .ints copied => (gatheredVector (fun s => (stale s).ints fileName) (copied t) ranks).map .ints

/-- The body of a loop over the time steps on all server ranks: the call rank 0 makes. -/
def writeStatRanks (stale : Nat → StaleBuffer D) (options : Options D) (field : String)
    (ranks : List (List (MelissaData D))) (stat : OutputStat D) (t : Nat) : Option (WriteCall D) :=
  let maxSizeTime := Nat.log 10 options.nbTimeSteps + 1
  let fileName :=
    "results." ++ field ++ "_" ++ stat.file ++ "." ++ formatPadded maxSizeTime (t + 1)
  (gatheredOutput stale fileName stat.source t ranks).map fun vect =>
    { fileName := fileName, field := field, statName := stat.statName, timeStep := t
      vectSize := (ranks.map fun array => (array.map MelissaData.vectSize).sum).sum, vect := vect }

/-- The vector that is copied from a structure; from one without values nothing is. -/
def Copied (copied : MelissaData D → Option (List α)) (data : MelissaData D) (vector : List α) :
    Prop :=
  vector.length = data.vectSize ∧ (0 < data.vectSize → copied data = some vector)

theorem copyStructures_eq {copied : MelissaData D → Option (List α)}
    {array : List (MelissaData D)} {vectors : List (List α)}
    (read : List.Forall₂ (Copied copied) array vectors) {tempOffset : Nat} {buffer : List α}
    (room : tempOffset + (array.map MelissaData.vectSize).sum ≤ buffer.length) :
    copyStructures copied array tempOffset buffer =
      some (copyVectors vectors tempOffset buffer) := by
  induction read generalizing tempOffset buffer with
  | nil => rfl
  | @cons data vector rest rest' first later ih =>
      obtain ⟨length, here⟩ := first
      rw [List.map_cons, List.sum_cons] at room
      rw [copyStructures, copyVectors, length]
      by_cases some_value : 0 < data.vectSize
      · have inside : tempOffset + data.vectSize ≤ buffer.length := by omega
        rw [if_pos some_value, if_pos some_value, here some_value, Option.bind_eq_bind,
          Option.bind_some, if_pos inside]
        apply ih
        rw [copyAt, List.length_append, List.length_append, List.length_take, List.length_drop,
          length]
        omega
      · rw [if_neg some_value, if_neg some_value]
        exact ih (by omega)

theorem sum_vectSize_eq {copied : MelissaData D → Option (List α)}
    {array : List (MelissaData D)} {vectors : List (List α)}
    (read : List.Forall₂ (Copied copied) array vectors) :
    (array.map MelissaData.vectSize).sum = (vectors.map List.length).sum := by
  induction read with
  | nil => rfl
  | cons first _ ih => rw [List.map_cons, List.map_cons, List.sum_cons, List.sum_cons, ih, first.1]

/-- Gathering structures is gathering their vectors. -/
theorem gatheredVector_of_copied (fresh : Nat → Nat → α)
    {copied : MelissaData D → Option (List α)} {ranks : List (List (MelissaData D))}
    {stored : List (List (List α))}
    (read : List.Forall₂ (List.Forall₂ (Copied copied)) ranks stored) :
    gatheredVector fresh copied ranks = some (writtenBuffer fresh stored) := by
  have same := List.forall₂_iff_get.mp read
  have localVectSizes : ranks.map (fun array => (array.map MelissaData.vectSize).sum) =
      stored.map fun vectors => (vectors.map List.length).sum := by
    apply List.ext_getElem
    · rw [List.length_map, List.length_map, same.1]
    · intro s inside inside'
      rw [List.getElem_map, List.getElem_map]
      exact sum_vectSize_eq (same.2 s (by simpa using inside) (by simpa using inside'))
  let total := (stored.map fun vectors => (vectors.map List.length).sum).sum
  have buffers : ranks.mapIdx (fun s array =>
        copyStructures copied array 0 ((List.range total).map (fresh s))) =
      (stored.mapIdx fun s vectors =>
        copyVectors vectors 0 ((List.range total).map (fresh s))).map some := by
    apply List.ext_getElem
    · rw [List.length_mapIdx, List.length_map, List.length_mapIdx, same.1]
    · intro s inside inside'
      have known : s < ranks.length := by simpa using inside
      have known' : s < stored.length := by simpa using inside'
      have own : List.Forall₂ (Copied copied) ranks[s] stored[s] := same.2 s known known'
      have member : (stored[s].map List.length).sum ∈
          stored.map fun vectors => (vectors.map List.length).sum :=
        List.mem_map_of_mem (List.getElem_mem known')
      rw [List.getElem_mapIdx, List.getElem_map, List.getElem_mapIdx]
      apply copyStructures_eq own
      rw [sum_vectSize_eq own, List.length_map, List.length_range, Nat.zero_add]
      exact List.le_sum_of_mem member
  have all (items : List (List α)) : (items.map some).mapM id = some items := by
    rw [List.mapM_map, Function.id_comp, mapM_eq_some fun item _ => rfl, List.map_id']
  rw [gatheredVector, writtenBuffer]
  simp only [localVectSizes, same.1]
  rw [buffers, all]
  rfl

theorem sum_gathered {copied : MelissaData D → Option (List α)}
    {ranks : List (List (MelissaData D))} {stored : List (List (List α))}
    (read : List.Forall₂ (List.Forall₂ (Copied copied)) ranks stored) (fresh : Nat → Nat → α) :
    (ranks.map fun array => (array.map MelissaData.vectSize).sum).sum =
      (writtenBuffer fresh stored).length := by
  rw [writtenBuffer_eq, List.length_flatten, List.map_map]
  congr 1
  induction read with
  | nil => rfl
  | cons first _ ih =>
      rw [List.map_cons, List.map_cons, ih, sum_vectSize_eq first, Function.comp_apply,
        List.length_flatten]

/-- The call that is made with the whole field in one structure. -/
theorem gatheredVector_single {copied : MelissaData D → Option (List α)}
    (fresh : Nat → Nat → α) {whole : MelissaData D} {vector : List α}
    (here : copied whole = some vector) (length : vector.length = whole.vectSize) :
    gatheredVector fresh copied [[whole]] = some vector := by
  rw [gatheredVector_of_copied fresh (.cons (.cons ⟨length, fun _ => here⟩ .nil) .nil),
    writtenBuffer_eq]
  simp

/-- `part` holds, in its own piece, what `whole` holds of a time step, as far as `view` shows
it. -/
structure HoldsPart {β : Type} (view : StepStats D → β) {n : Nat} (piece : Piece n) (t : Nat)
    (whole part : MelissaData D) : Prop where
  size : part.vectSize = piece.count
  stats : 0 < piece.count → view (stepStats part t) = view ((stepStats whole t).part piece)

theorem HoldsPart.mono {β γ : Type} {view : StepStats D → β} {coarser : StepStats D → γ} {n : Nat}
    {piece : Piece n} {t : Nat} {whole part : MelissaData D}
    (hides : ∀ stats stats', view stats = view stats' → coarser stats = coarser stats')
    (holds : HoldsPart view piece t whole part) : HoldsPart coarser piece t whole part :=
  ⟨holds.size, fun positive => hides _ _ (holds.stats positive)⟩

end Gathered

section Memcpy

variable {D α : Type} {n : Nat} {piece : Piece n} {whole part : MelissaData D}

theorem memcpyFrom_part (size : whole.vectSize = n) (size' : part.vectSize = piece.count)
    {array vector : List α} (copied : memcpyFrom whole array = some vector) :
    memcpyFrom part (piece.take array) = some (piece.take vector) ∧ vector.length = n := by
  obtain ⟨room, taken⟩ := Option.ite_none_right_eq_some.mp copied
  obtain rfl := Option.some.inj taken
  have inside := piece.inside
  have length : (piece.take array).length = piece.count := by
    rw [Piece.take, List.length_take, List.length_drop]
    omega
  have same : piece.take (array.take whole.vectSize) = piece.take array := by
    rw [Piece.take, Piece.take, size, List.drop_take, List.take_take]
    congr 1
    omega
  refine ⟨?_, ?_⟩
  · rw [memcpyFrom, if_pos (by omega), same, size', ← length, List.take_length]
  · rw [List.length_take, size]
    omega

theorem memcpyDoubles_part (size : whole.vectSize = n) (size' : part.vectSize = piece.count)
    {array : List D} {vector : List (Extended D)}
    (copied : memcpyDoubles whole array = some vector) :
    memcpyDoubles part (piece.take array) = some (piece.take vector) ∧ vector.length = n := by
  obtain ⟨values, here, rfl⟩ := Option.map_eq_some_iff.mp copied
  obtain ⟨there, length⟩ := memcpyFrom_part size size' here
  refine ⟨?_, by rw [List.length_map, length]⟩
  rw [memcpyDoubles, there, Option.map_some, Piece.take, Piece.take, List.map_take, List.map_drop]

end Memcpy

section Componentwise

variable {D α β γ : Type} {view : StepStats D → β}

/-- From a part of the statistics this copies the part of what it copies from all of them. -/
def Componentwise (view : StepStats D → β) (copied : Nat → MelissaData D → Option (List α)) :
    Prop :=
  ∀ (n t : Nat) (piece : Piece n) (whole part : MelissaData D) (vector : List α),
    0 < piece.count → whole.vectSize = n → HoldsPart view piece t whole part →
    copied t whole = some vector → copied t part = some (piece.take vector) ∧ vector.length = n

/-- What is copied with `memcpy` from an array that `view` shows. -/
theorem componentwise_memcpyFrom (array : StepStats D → Option (List α))
    (shown : ∀ stats stats', view stats = view stats' → array stats = array stats')
    (parts : ∀ {n : Nat} (piece : Piece n) (stats : StepStats D),
      array (stats.part piece) = (array stats).map piece.take) :
    Componentwise view fun t data => (array (stepStats data t)).bind (memcpyFrom data) := by
  intro n t piece whole part vector some_count size holds copied
  beta_reduce at copied ⊢
  obtain ⟨values, here, read⟩ := Option.bind_eq_some_iff.mp copied
  obtain ⟨read', length⟩ := memcpyFrom_part size holds.size read
  refine ⟨?_, length⟩
  rw [shown _ _ (holds.stats some_count), parts, here, Option.map_some, Option.bind_some, read']

theorem componentwise_memcpyDoubles (array : StepStats D → Option (List D))
    (shown : ∀ stats stats', view stats = view stats' → array stats = array stats')
    (parts : ∀ {n : Nat} (piece : Piece n) (stats : StepStats D),
      array (stats.part piece) = (array stats).map piece.take) :
    Componentwise view fun t data => (array (stepStats data t)).bind (memcpyDoubles data) := by
  intro n t piece whole part vector some_count size holds copied
  beta_reduce at copied ⊢
  obtain ⟨values, here, read⟩ := Option.bind_eq_some_iff.mp copied
  obtain ⟨read', length⟩ := memcpyDoubles_part size holds.size read
  refine ⟨?_, length⟩
  rw [shown _ _ (holds.stats some_count), parts, here, Option.map_some, Option.bind_some, read']

/-- What is computed from the moments component by component. -/
theorem componentwise_computed {compute : Moments D → Nat → List α} {value : Moments D → Nat → α}
    (shown : ∀ stats stats', view stats = view stats' → stats.moments = stats'.moments)
    (each : ∀ moments vectSize, compute moments vectSize =
      (List.range vectSize).map (value moments))
    (parts : ∀ {n : Nat} (piece : Piece n) (moments : Moments D), ∀ i < piece.count,
      value (moments.part piece) i = value moments (piece.start + i)) :
    Componentwise view fun t data =>
      data.moments[t]?.map fun moments => compute moments data.vectSize := by
  intro n t piece whole part vector some_count size holds copied
  beta_reduce at copied ⊢
  obtain ⟨moments, here, rfl⟩ := Option.map_eq_some_iff.mp copied
  refine ⟨?_, by rw [each, List.length_map, List.length_range, size]⟩
  have own : part.moments[t]? = whole.moments[t]?.map (Moments.part piece) :=
    shown _ _ (holds.stats some_count)
  rw [own, here, Option.map_some, Option.map_some, each, each, size, piece.take_map_range,
    holds.size]
  congr 1
  exact List.map_congr_left fun i member => parts piece moments i (List.mem_range.mp member)

/-- The file is put together component by component from what `view` shows. -/
def StatSource.Parts (view : StepStats D → β) (source : StatSource D) : Prop :=
  match source with
  | .doubles copied => Componentwise view copied
  | .ints copied => Componentwise view copied

end Componentwise

section Sources

variable {D β : Type} {view : StepStats D → β}

theorem Componentwise.congr {α : Type} {copied copied' : Nat → MelissaData D → Option (List α)}
    (parts : Componentwise view copied) (same : ∀ t data, copied' t data = copied t data) :
    Componentwise view copied' := by
  have equal : copied' = copied := funext fun t => funext (same t)
  rw [equal]
  exact parts

section Moments

variable (shown : ∀ stats stats', view stats = view stats' → stats.moments = stats'.moments)
include shown

theorem componentwise_moments {array : Moments D → List D}
    (parts : ∀ {n : Nat} (piece : Piece n) (moments : Moments D),
      array (moments.part piece) = piece.take (array moments)) :
    Componentwise view fun t data =>
      data.moments[t]?.bind fun moments => memcpyDoubles data (array moments) := by
  have copied : Componentwise view fun t data =>
      ((stepStats data t).moments.map array).bind (memcpyDoubles data) := by
    apply componentwise_memcpyDoubles fun stats => stats.moments.map array
    · intro stats stats' same
      rw [shown stats stats' same]
    · intro n piece stats
      simp only [StepStats.part, Option.map_map, Function.comp_def, parts]
  exact copied.congr fun t data => by rw [Option.bind_map]; rfl

theorem meanStat_parts : meanStat.source.Parts view := componentwise_moments shown fun _ _ => rfl

theorem varianceStat_parts : varianceStat.source.Parts view :=
  componentwise_moments shown fun _ _ => rfl

variable [Zero D] [Div D] [LT D] [DecidableEq D] [DecidableLT D]

theorem skewnessStat_parts [NatCast D] [Libm D] : skewnessStat.source.Parts view := by
  refine componentwise_computed shown (fun _ _ => rfl) ?_
  intro n piece moments i known
  simp only [Moments.part, piece.getD_take known]

theorem kurtosisStat_parts [Pow D ℕ] : kurtosisStat.source.Parts view := by
  refine componentwise_computed shown (fun _ _ => rfl) ?_
  intro n piece moments i known
  simp only [Moments.part, piece.getD_take known]

end Moments

/-- An array of the extrema that `view` shows. -/
theorem extrema_parts {α : Type} {array : MinMax D → List α}
    (parts : ∀ {n : Nat} (piece : Piece n) (minMax : MinMax D),
      array (minMax.part piece) = piece.take (array minMax)) {n : Nat} (piece : Piece n)
    (stats : StepStats D) :
    (stats.part piece).minMax.map array = (stats.minMax.map array).map piece.take := by
  simp only [StepStats.part, Option.map_map, Function.comp_def, parts]

theorem minStat_parts (shown : ∀ stats stats', view stats = view stats' →
    stats.minMax.map MinMax.min = stats'.minMax.map MinMax.min) : minStat.source.Parts view :=
  (componentwise_memcpyDoubles _ shown (extrema_parts fun _ _ => rfl)).congr fun t data => by
    rw [Option.bind_map]; rfl

theorem maxStat_parts (shown : ∀ stats stats', view stats = view stats' →
    stats.minMax.map MinMax.max = stats'.minMax.map MinMax.max) : maxStat.source.Parts view :=
  (componentwise_memcpyDoubles _ shown (extrema_parts fun _ _ => rfl)).congr fun t data => by
    rw [Option.bind_map]; rfl

theorem minIdStat_parts (shown : ∀ stats stats', view stats = view stats' →
    stats.minMax.map MinMax.minId = stats'.minMax.map MinMax.minId) :
    minIdStat.source.Parts view :=
  (componentwise_memcpyFrom _ shown (extrema_parts fun _ _ => rfl)).congr fun t data => by
    rw [Option.bind_map]; rfl

theorem maxIdStat_parts (shown : ∀ stats stats', view stats = view stats' →
    stats.minMax.map MinMax.maxId = stats'.minMax.map MinMax.maxId) :
    maxIdStat.source.Parts view :=
  (componentwise_memcpyFrom _ shown (extrema_parts fun _ _ => rfl)).congr fun t data => by
    rw [Option.bind_map]; rfl

theorem thresholdStat_parts
    (shown : ∀ stats stats', view stats = view stats' → stats.thresholds = stats'.thresholds)
    (formatG : D → String) (value : Nat) (threshold : D) :
    (thresholdStat formatG value threshold).source.Parts view := by
  have copied : Componentwise view fun t data => ((stepStats data t).thresholds.bind fun row =>
      row[value]?.map Threshold.thresholdExceedance).bind (memcpyFrom data) := by
    apply componentwise_memcpyFrom fun stats => stats.thresholds.bind fun row =>
      row[value]?.map Threshold.thresholdExceedance
    · intro stats stats' same
      rw [shown stats stats' same]
    · intro n piece stats
      simp only [StepStats.part, Option.bind_map, Option.map_bind, Function.comp_def,
        List.getElem?_map, Option.map_map, Threshold.part]
  exact copied.congr fun t data => by
    simp only [stepStats, Option.bind_assoc, Option.bind_map, Function.comp_def]

theorem quantileStat_parts
    (shown : ∀ stats stats', view stats = view stats' → stats.quantiles = stats'.quantiles)
    (formatG : D → String) (value : Nat) (quantileOrder : D) :
    (quantileStat formatG value quantileOrder).source.Parts view := by
  have copied : Componentwise view fun t data => ((stepStats data t).quantiles.bind fun row =>
      row[value]?.map Quantile.quantile).bind (memcpyDoubles data) := by
    apply componentwise_memcpyDoubles fun stats => stats.quantiles.bind fun row =>
      row[value]?.map Quantile.quantile
    · intro stats stats' same
      rw [shown stats stats' same]
    · intro n piece stats
      simp only [StepStats.part, Option.bind_map, Option.map_bind, Function.comp_def,
        List.getElem?_map, Option.map_map, Quantile.part]
  exact copied.congr fun t data => by
    simp only [stepStats, Option.bind_assoc, Option.bind_map, Function.comp_def]

/-- An array of the indices of parameter `p`. -/
theorem componentwise_sobol {array : SobolMartinez D → List D}
    (shown : ∀ stats stats', view stats = view stats' → stats.sobolIndices = stats'.sobolIndices)
    (parts : ∀ {n : Nat} (piece : Piece n) (martinez : SobolMartinez D),
      array (martinez.part piece) = piece.take (array martinez)) (p : Nat) :
    Componentwise view fun t data => data.sobolIndices[t]?.bind fun sobolArray =>
      sobolArray.sobolMartinez[p]?.bind fun martinez =>
        memcpyDoubles data (array martinez) := by
  have copied : Componentwise view fun t data =>
      ((stepStats data t).sobolIndices.bind fun sobolArray =>
        sobolArray.sobolMartinez[p]?.map array).bind (memcpyDoubles data) := by
    apply componentwise_memcpyDoubles fun stats => stats.sobolIndices.bind fun sobolArray =>
      sobolArray.sobolMartinez[p]?.map array
    · intro stats stats' same
      rw [shown stats stats' same]
    · intro n piece stats
      simp only [StepStats.part, Option.bind_map, Option.map_bind, Function.comp_def,
        SobolArray.part, List.getElem?_map, Option.map_map, parts]
  exact copied.congr fun t data => by
    simp only [stepStats, Option.bind_assoc, Option.bind_map, Function.comp_def]

variable [Zero D] [Div D] [NatCast D] [Pow D ℕ] [LT D] [DecidableEq D] [DecidableLT D] [Libm D]

/-- A record of statistics but for the quantiles. -/
def quantileFree (stats : StepStats D) : StepStats D := { stats with quantiles := none }

/-- Every file is put together component by component from a view of all statistics; the quantiles
count only where they are asked for. -/
theorem outputStats_parts {formatG : D → String} {options : Options D} {stat : OutputStat D}
    (shown : ∀ stats stats', view stats = view stats' → quantileFree stats = quantileFree stats')
    (quantiles : options.quantileOp = true →
      ∀ stats stats', view stats = view stats' → stats.quantiles = stats'.quantiles)
    (member : stat ∈ outputStats formatG options) : stat.source.Parts view := by
  have moments (stats stats' : StepStats D) (same : view stats = view stats') :
      stats.moments = stats'.moments :=
    (congrArg StepStats.moments (shown stats stats' same) :)
  have minMax (stats stats' : StepStats D) (same : view stats = view stats') :
      stats.minMax = stats'.minMax := (congrArg StepStats.minMax (shown stats stats' same) :)
  have thresholds (stats stats' : StepStats D) (same : view stats = view stats') :
      stats.thresholds = stats'.thresholds :=
    (congrArg StepStats.thresholds (shown stats stats' same) :)
  have sobolIndices (stats stats' : StepStats D) (same : view stats = view stats') :
      stats.sobolIndices = stats'.sobolIndices :=
    (congrArg StepStats.sobolIndices (shown stats stats' same) :)
  simp only [outputStats, List.mem_append] at member
  rcases member with ((((((member | member) | member) | member) | member) | member) | member) |
    member
  · rw [List.mem_singleton.mp (mem_of_mem_if member).2]
    exact meanStat_parts moments
  · rw [List.mem_singleton.mp (mem_of_mem_if member).2]
    exact varianceStat_parts moments
  · rw [List.mem_singleton.mp (mem_of_mem_if member).2]
    exact skewnessStat_parts moments
  · rw [List.mem_singleton.mp (mem_of_mem_if member).2]
    exact kurtosisStat_parts moments
  · have listed := (mem_of_mem_if member).2
    simp only [List.mem_cons, List.not_mem_nil, or_false] at listed
    rcases listed with rfl | rfl | rfl | rfl
    · exact minStat_parts fun _ _ same => by rw [minMax _ _ same]
    · exact minIdStat_parts fun _ _ same => by rw [minMax _ _ same]
    · exact maxStat_parts fun _ _ same => by rw [minMax _ _ same]
    · exact maxIdStat_parts fun _ _ same => by rw [minMax _ _ same]
  · obtain ⟨value, _, rfl⟩ := List.mem_mapIdx.mp (mem_of_mem_if member).2
    exact thresholdStat_parts thresholds formatG value _
  · obtain ⟨value, _, rfl⟩ := List.mem_mapIdx.mp (mem_of_mem_if member).2
    exact quantileStat_parts (quantiles (mem_of_mem_if member).1) formatG value _
  · have listed := (mem_of_mem_if member).2
    rw [List.mem_append] at listed
    rcases listed with listed | listed
    · obtain ⟨p, _, rfl⟩ := List.mem_map.mp listed
      exact componentwise_sobol sobolIndices (fun _ _ => rfl) p
    · obtain ⟨p, _, rfl⟩ := List.mem_map.mp listed
      exact componentwise_sobol sobolIndices (fun _ _ => rfl) p

/-- The files of a study without its quantiles. -/
theorem outputStats_without {formatG : D → String} {options : Options D} {stat : OutputStat D}
    (member : stat ∈ outputStats formatG { options with quantileOp := false }) :
    stat ∈ outputStats formatG options := by
  simp only [outputStats, List.mem_append, Bool.false_eq_true, if_false, List.not_mem_nil,
    or_false] at member ⊢
  rcases member with listed | sobol
  · exact Or.inl (Or.inl listed)
  · exact Or.inr sobol

end Sources

section OrderFree

variable {K : Type}

theorem moments_of_values {stats stats' : StepStats K} (same : values stats = values stats') :
    stats.moments = stats'.moments := by
  have shown : (values stats).moments = (values stats').moments := by rw [same]
  exact shown

theorem thresholds_of_values {stats stats' : StepStats K} (same : values stats = values stats') :
    stats.thresholds = stats'.thresholds := by
  have shown : (values stats).thresholds = (values stats').thresholds := by rw [same]
  exact shown

theorem extrema_of_values {array : MinMax K → List K}
    (ids : ∀ minMax, array (eraseIds minMax) = array minMax) {stats stats' : StepStats K}
    (same : values stats = values stats') : stats.minMax.map array = stats'.minMax.map array := by
  have extrema := congrArg (fun stats : StepStats K => stats.minMax.map array) same
  simpa only [values, Option.map_map, Function.comp_def, ids] using extrema

theorem values_of_quantileFree (stats stats' : StepStats K)
    (same : quantileFree stats = quantileFree stats') : values stats = values stats' :=
  (congrArg values same :)

variable [Field K] [LinearOrder K] [Libm K]

/-- The files whose values do not depend on the order of the simulations: all but the
simulations of the extrema, the quantiles and the Sobol indices. -/
def orderFreeStats (formatG : K → String) (options : Options K) : List (OutputStat K) :=
  (if options.meanOp then [meanStat] else []) ++
  (if options.varianceOp then [varianceStat] else []) ++
  (if options.skewnessOp then [skewnessStat] else []) ++
  (if options.kurtosisOp then [kurtosisStat] else []) ++
  (if options.minAndMaxOp then [minStat, maxStat] else []) ++
  (if options.thresholdOp then options.threshold.mapIdx (thresholdStat formatG) else [])

theorem orderFreeStats_subset (formatG : K → String) (options : Options K) :
    ∀ stat ∈ orderFreeStats formatG options, stat ∈ outputStats formatG options := by
  intro stat member
  simp only [orderFreeStats, outputStats, List.mem_append] at member ⊢
  rcases member with ((((member | member) | member) | member) | member) | member
  · simp [member]
  · simp [member]
  · simp [member]
  · simp [member]
  · obtain ⟨op, member⟩ := mem_of_mem_if member
    simp only [List.mem_cons, List.not_mem_nil, or_false] at member
    rcases member with rfl | rfl
    · simp [op]
    · simp [op]
  · simp [member]

/-- These files show nothing but the values. -/
theorem orderFreeStats_parts {formatG : K → String} {options : Options K} {stat : OutputStat K}
    (member : stat ∈ orderFreeStats formatG options) : stat.source.Parts values := by
  simp only [orderFreeStats, List.mem_append] at member
  rcases member with ((((member | member) | member) | member) | member) | member
  · rw [List.mem_singleton.mp (mem_of_mem_if member).2]
    exact meanStat_parts fun _ _ => moments_of_values
  · rw [List.mem_singleton.mp (mem_of_mem_if member).2]
    exact varianceStat_parts fun _ _ => moments_of_values
  · rw [List.mem_singleton.mp (mem_of_mem_if member).2]
    exact skewnessStat_parts fun _ _ => moments_of_values
  · rw [List.mem_singleton.mp (mem_of_mem_if member).2]
    exact kurtosisStat_parts fun _ _ => moments_of_values
  · have listed := (mem_of_mem_if member).2
    simp only [List.mem_cons, List.not_mem_nil, or_false] at listed
    rcases listed with rfl | rfl
    · exact minStat_parts fun _ _ => extrema_of_values fun _ => rfl
    · exact maxStat_parts fun _ _ => extrema_of_values fun _ => rfl
  · obtain ⟨value, _, rfl⟩ := List.mem_mapIdx.mp (mem_of_mem_if member).2
    exact thresholdStat_parts (fun _ _ => thresholds_of_values) formatG value _

end OrderFree

section Gather

variable {D β : Type} {view : StepStats D → β} {n t : Nat}

/-- Each server rank copies its pieces. -/
theorem copied_pieces {α : Type} {copied : Nat → MelissaData D → Option (List α)}
    (parts : Componentwise view copied) (distribution : Distribution n) {whole : MelissaData D}
    (size : whole.vectSize = n) (structures : Nat → Nat → MelissaData D)
    (holds : ∀ s < distribution.nbServers, ∀ r < distribution.nbClients,
      HoldsPart view (distribution.piece s r) t whole (structures s r))
    {vector : List α} (here : copied t whole = some vector) (length : vector.length = n) :
    List.Forall₂ (List.Forall₂ (Copied (copied t)))
      ((List.range distribution.nbServers).map fun s =>
        (List.range distribution.nbClients).map (structures s))
      ((List.range distribution.nbServers).map fun s =>
        (List.range distribution.nbClients).map fun r =>
          (distribution.piece s r).take vector) := by
  simp only [List.forall₂_map_left_iff, List.forall₂_map_right_iff, List.forall₂_same,
    List.mem_range]
  intro s server r client
  have part := holds s server r client
  refine ⟨by rw [part.size, Piece.length_take _ length], ?_⟩
  intro some_count
  rw [part.size] at some_count
  exact (parts n t _ whole _ vector some_count size part here).1

/-- The pieces of all server ranks together give the vector of the whole field. -/
theorem gatheredVector_eq {α : Type} {copied : Nat → MelissaData D → Option (List α)}
    (parts : Componentwise view copied) (distribution : Distribution n) {whole : MelissaData D}
    (size : whole.vectSize = n) (structures : Nat → Nat → MelissaData D)
    (holds : ∀ s < distribution.nbServers, ∀ r < distribution.nbClients,
      HoldsPart view (distribution.piece s r) t whole (structures s r))
    (copies : ∃ vector, copied t whole = some vector ∧ vector.length = whole.vectSize)
    (fresh fresh' : Nat → Nat → α) :
    ∃ vector, gatheredVector fresh (copied t) ((List.range distribution.nbServers).map fun s =>
        (List.range distribution.nbClients).map (structures s)) = some vector ∧
      gatheredVector fresh' (copied t) [[whole]] = some vector ∧
      (((List.range distribution.nbServers).map fun s =>
        (List.range distribution.nbClients).map (structures s)).map
          fun array => (array.map MelissaData.vectSize).sum).sum = n := by
  obtain ⟨vector, here, length⟩ := copies
  have read := copied_pieces parts distribution size structures holds here (length.trans size)
  have gathered := writtenBuffer_pieces distribution fresh (length.trans size)
  refine ⟨vector, ?_, gatheredVector_single fresh' here length, ?_⟩
  · rw [gatheredVector_of_copied fresh read, gathered]
  · rw [sum_gathered read fresh, gathered, length, size]

theorem gatheredOutput_eq {source : StatSource D} (parts : source.Parts view)
    (distribution : Distribution n) {whole : MelissaData D} (size : whole.vectSize = n)
    (structures : Nat → Nat → MelissaData D)
    (holds : ∀ s < distribution.nbServers, ∀ r < distribution.nbClients,
      HoldsPart view (distribution.piece s r) t whole (structures s r))
    (copies : source.Copies t whole) (stale stale' : Nat → StaleBuffer D) (fileName : String) :
    ∃ vect, gatheredOutput stale fileName source t
        ((List.range distribution.nbServers).map fun s =>
          (List.range distribution.nbClients).map (structures s)) = some vect ∧
      gatheredOutput stale' fileName source t [[whole]] = some vect ∧
      (((List.range distribution.nbServers).map fun s =>
        (List.range distribution.nbClients).map (structures s)).map
          fun array => (array.map MelissaData.vectSize).sum).sum = n := by
  cases source with
  | doubles copied =>
      obtain ⟨vector, all, alone, sum⟩ := gatheredVector_eq parts distribution size structures
        holds copies (fun s => (stale s).doubles fileName) fun s => (stale' s).doubles fileName
      refine ⟨.doubles vector, ?_, ?_, sum⟩
      · rw [gatheredOutput, all, Option.map_some]
      · rw [gatheredOutput, alone, Option.map_some]
  | ints copied =>
      obtain ⟨vector, all, alone, sum⟩ := gatheredVector_eq parts distribution size structures
        holds copies (fun s => (stale s).ints fileName) fun s => (stale' s).ints fileName
      refine ⟨.ints vector, ?_, ?_, sum⟩
      · rw [gatheredOutput, all, Option.map_some]
      · rw [gatheredOutput, alone, Option.map_some]

/-- The call of a file that is put together component by component is the one made with the whole
field in one structure. -/
theorem writeStatRanks_eq {stat : OutputStat D} (parts : stat.source.Parts view)
    (distribution : Distribution n) {whole : MelissaData D} (size : whole.vectSize = n)
    (structures : Nat → Nat → MelissaData D)
    (holds : ∀ s < distribution.nbServers, ∀ r < distribution.nbClients,
      HoldsPart view (distribution.piece s r) t whole (structures s r))
    (copies : stat.source.Copies t whole) (stale stale' : Nat → StaleBuffer D)
    (options : Options D) (field : String) :
    ∃ call, writeStatRanks stale options field ((List.range distribution.nbServers).map fun s =>
        (List.range distribution.nbClients).map (structures s)) stat t = some call ∧
      writeStatRanks stale' options field [[whole]] stat t = some call := by
  obtain ⟨vect, all, alone, sum⟩ := gatheredOutput_eq parts distribution size structures holds
    copies stale stale' ("results." ++ field ++ "_" ++ stat.file ++ "." ++
      formatPadded (Nat.log 10 options.nbTimeSteps + 1) (t + 1))
  have single : ([[whole]].map fun array => (array.map MelissaData.vectSize).sum).sum = n := by
    simp [size]
  simp only [writeStatRanks, all, alone, sum, single, Option.map_some]
  exact ⟨_, rfl, rfl⟩

end Gather

end Melissa
