import Melissa.Bits
import Melissa.Options
import Melissa.Stats.OrderStatistics
import Melissa.Stats.Sobol

/-! `melissa_data.c` and `compute_stats.c`: what the server keeps for one field and one client
rank, its allocation, and the update by one message. -/

namespace Melissa

open Arrays

/-- `melissa_data_t`. A statistics array holds one element per time step once it is
allocated, and is empty before. -/
structure MelissaData (D : Type) where
  vectSize : Nat
  isValid : Bool
  statsInit : Bool
  stepsInit : Bool
  minMax : List (MinMax D)
  thresholds : List (List (Threshold D))
  quantiles : List (List (Quantile D))
  moments : List (Moments D)
  sobolIndices : List (SobolArray D)
  stepSimu : List (List Word)
  deriving DecidableEq, Repr

/-- A structure as `add_fields` leaves it. -/
def emptyData {D : Type} : MelissaData D :=
  { vectSize := 0, isValid := false, statsInit := false, stepsInit := false, minMax := []
    thresholds := [], quantiles := [], moments := [], sobolIndices := [], stepSimu := [] }

section Init

variable {D : Type}

/-- One array of bits, one bit per time step. -/
def noSteps (options : Options D) : List Word :=
  List.replicate (nbWords options.nbTimeSteps) 0#32

/-- `melissa_check_data`: `melissa_check_options` ends the process on options that it rejects, and
leaves those that have passed at the start as they are (`melissaCheckOptions_again`). -/
def melissaCheckData (options : Options D) (data : MelissaData D) : Option (MelissaData D) :=
  if data.isValid then some data
  else (melissaCheckOptions options).map fun _ => { data with isValid := true }

def melissaInitSteps (options : Options D) (data : MelissaData D) : MelissaData D :=
  if data.stepsInit = false then
    { data with
      stepSimu := List.replicate options.samplingSize.toNat (noSteps options)
      stepsInit := true }
  else data

variable [Zero D] [NatCast D]

def melissaAllocData (options : Options D) (data : MelissaData D) : MelissaData D :=
  let data := melissaInitSteps options data
  if data.vectSize = 0 then data else
  let perStep {α : Type} (op : Bool) (init : α) (old : List α) : List α :=
    if op then List.replicate options.nbTimeSteps init else old
  { data with
    moments := List.replicate options.nbTimeSteps (initMoments data.vectSize options.maxOrder)
    minMax := perStep options.minAndMaxOp (initMinMax data.vectSize) data.minMax
    thresholds := perStep options.thresholdOp
      (options.threshold.map (initThreshold data.vectSize)) data.thresholds
    quantiles := perStep options.quantileOp
      (options.quantileOrder.map (initQuantile data.vectSize)) data.quantiles
    sobolIndices := perStep options.sobolOp
      (initSobolMartinez options.nbParameters data.vectSize) data.sobolIndices
    statsInit := true }

/-- `melissa_init_data` of a structure that `melissa_check_data` lets pass. -/
def melissaInitData (options : Options D) (data : MelissaData D) (vectSize : Nat) :
    MelissaData D :=
  let data := { data with
    isValid := true, vectSize := vectSize, moments := [], minMax := [], thresholds := []
    quantiles := [], sobolIndices := [] }
  if vectSize > 0 then melissaAllocData options data else melissaInitSteps options data

end Init

section Compute

variable {D : Type} [Zero D] [Add D] [Sub D] [Mul D] [Div D] [NatCast D] [IntCast D]
  [Pow D ℕ] [LT D] [DecidableLT D] [LE D] [DecidableLE D] [Libm D]

/-- The statistics of one time step that are fed with vector A, and with vector B in a Sobol
study. -/
def computeVector (options : Options D) (timeStep simuId : Nat) (inVect : List D)
    (data : MelissaData D) : MelissaData D :=
  { data with
    moments := data.moments.modify timeStep fun moments =>
      incrementMoments moments inVect data.vectSize
    minMax := if options.minAndMaxOp then
        data.minMax.modify timeStep fun minMax => minAndMax minMax inVect simuId data.vectSize
      else data.minMax
    thresholds := if options.thresholdOp then
        data.thresholds.modify timeStep fun row =>
          row.map fun threshold => updateThresholdExceedance threshold inVect data.vectSize
      else data.thresholds
    quantiles := if options.quantileOp then
        data.quantiles.modify timeStep fun row =>
          row.map fun quantile =>
            incrementQuantile quantile options.samplingSize inVect data.vectSize
      else data.quantiles }

def computeSobol (timeStep : Nat) (inVectTab : List (List D)) (data : MelissaData D) :
    MelissaData D :=
  { data with
    sobolIndices := data.sobolIndices.modify timeStep fun sobolArray =>
      incrementSobolMartinez sobolArray inVectTab data.vectSize }

/-- `compute_stats`. It ends the process on a structure that is not valid and on a wrong number
of vectors; a vector shorter than `vect_size` is read past its end. -/
def computeStats (options : Options D) (data : MelissaData D) (timeStep simuId : Nat)
    (inVectTab : List (List D)) : Option (MelissaData D) :=
  if data.isValid = false then none
  else if inVectTab.any (fun vect => vect.length < data.vectSize) then none
  else
    let data := computeVector options timeStep simuId (inVectTab.getD 0 []) data
    if options.sobolOp then
      if inVectTab.length ≠ options.nbParameters + 2 then none
      else some (computeVector options timeStep simuId (inVectTab.getD 1 [])
        (computeSobol timeStep inVectTab data))
    else some data

end Compute

end Melissa
