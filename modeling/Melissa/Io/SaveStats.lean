import Melissa.Io.Codec
import Melissa.Stats.OrderStatistics
import Melissa.Stats.Sobol

/-! The `save_...` and `read_...` functions of the statistics, for the element of one time step.
Each pair comes with the sizes it relies on and with its round trip. -/

namespace Melissa

open Files

variable {D B : Type}

section Moments

/-- The body of the loop of `save_moments`. -/
def saveMoments (codec : Codec D B) (vectSize : Nat) (moments : Moments D) : List (List B) :=
  [fwriteInt codec moments.maxOrder] ++
  (if moments.maxOrder > 0 then [fwriteDoubles codec vectSize moments.m1] else []) ++
  (if moments.maxOrder > 1 then [fwriteDoubles codec vectSize moments.m2] else []) ++
  (if moments.maxOrder > 2 then [fwriteDoubles codec vectSize moments.m3] else []) ++
  (if moments.maxOrder > 3 then [fwriteDoubles codec vectSize moments.m4] else []) ++
  [fwriteInt codec moments.increment]

/-- The body of the loop of `read_moments`. -/
def readMoments (codec : Codec D B) (vectSize : Nat) (moments : Moments D) :
    Reader B (Moments D) := do
  let maxOrder ← freadInt codec moments.maxOrder
  let m1 ← readIf (maxOrder > 0) (freadDoubles codec vectSize moments.m1) moments.m1
  let m2 ← readIf (maxOrder > 1) (freadDoubles codec vectSize moments.m2) moments.m2
  let m3 ← readIf (maxOrder > 2) (freadDoubles codec vectSize moments.m3) moments.m3
  let m4 ← readIf (maxOrder > 3) (freadDoubles codec vectSize moments.m4) moments.m4
  let increment ← freadInt codec moments.increment
  pure { moments with
    maxOrder := maxOrder, m1 := m1, m2 := m2, m3 := m3, m4 := m4, increment := increment }

/-- The arrays of `moments_t` that the orders up to `maxOrder` have. -/
structure Moments.Sized (codec : Codec D B) (vectSize maxOrder : Nat) (moments : Moments D) :
    Prop where
  order : moments.maxOrder = maxOrder
  m1 : moments.m1.length = if maxOrder > 0 then vectSize else 0
  m2 : moments.m2.length = if maxOrder > 1 then vectSize else 0
  m3 : moments.m3.length = if maxOrder > 2 then vectSize else 0
  m4 : moments.m4.length = if maxOrder > 3 then vectSize else 0
  fitsOrder : codec.Fits maxOrder
  fitsIncrement : codec.Fits moments.increment

variable [Zero D]

/-- What a restart keeps of the moments: the central moments `theta` are not saved. -/
def Moments.saved (vectSize : Nat) (moments : Moments D) : Moments D :=
  { initMoments vectSize moments.maxOrder with
    m1 := moments.m1, m2 := moments.m2, m3 := moments.m3, m4 := moments.m4
    increment := moments.increment }

theorem reads_orderArray {codec : Codec D B} {vectSize maxOrder least : Nat} {saved : List D}
    (size : saved.length = if maxOrder > least then vectSize else 0) :
    Reads (readIf (maxOrder > least)
        (freadDoubles codec vectSize
          (if maxOrder > least then List.replicate vectSize (0 : D) else []))
        (if maxOrder > least then List.replicate vectSize (0 : D) else []))
      (if maxOrder > least then [fwriteDoubles codec vectSize saved] else []) saved := by
  apply reads_if
  · intro allocated
    rw [if_pos allocated] at size ⊢
    exact reads_doubles (by simp) size
  · intro absent
    rw [if_neg absent] at size ⊢
    exact (List.eq_nil_of_length_eq_zero size).symm

theorem reads_moments {codec : Codec D B} {vectSize maxOrder : Nat} {moments : Moments D}
    (sized : moments.Sized codec vectSize maxOrder) :
    Reads (readMoments codec vectSize (initMoments vectSize maxOrder))
      (saveMoments codec vectSize moments) (moments.saved vectSize) := by
  obtain ⟨rfl, m1, m2, m3, m4, fitsOrder, fitsIncrement⟩ := sized
  simp only [saveMoments, List.append_assoc]
  refine reads_bind (reads_int fitsOrder _) ?_
  refine reads_bind (reads_orderArray m1) ?_
  refine reads_bind (reads_orderArray m2) ?_
  refine reads_bind (reads_orderArray m3) ?_
  refine reads_bind (reads_orderArray m4) ?_
  exact reads_map _ (reads_int fitsIncrement _)

end Moments

section MinMax

/-- The body of the loop of `save_min_max`. -/
def saveMinMax (codec : Codec D B) (vectSize : Nat) (minMax : MinMax D) : List (List B) :=
  [fwriteDoubles codec vectSize minMax.min] ++ [fwriteDoubles codec vectSize minMax.max] ++
  [fwriteInts codec vectSize minMax.minId] ++ [fwriteInts codec vectSize minMax.maxId] ++
  [fwriteInt codec minMax.isInit.toNat]

/-- The body of the loop of `read_min_max`. -/
def readMinMax (codec : Codec D B) (vectSize : Nat) (minMax : MinMax D) :
    Reader B (MinMax D) := do
  let min ← freadDoubles codec vectSize minMax.min
  let max ← freadDoubles codec vectSize minMax.max
  let minId ← freadInts codec vectSize minMax.minId
  let maxId ← freadInts codec vectSize minMax.maxId
  let isInit ← freadInt codec minMax.isInit.toNat
  pure { min := min, max := max, minId := minId, maxId := maxId, isInit := isInit != 0 }

structure MinMax.Sized (codec : Codec D B) (vectSize : Nat) (minMax : MinMax D) : Prop where
  min : minMax.min.length = vectSize
  max : minMax.max.length = vectSize
  minId : minMax.minId.length = vectSize
  maxId : minMax.maxId.length = vectSize
  fitsMin : ∀ id ∈ minMax.minId, codec.Fits id
  fitsMax : ∀ id ∈ minMax.maxId, codec.Fits id
  fitsInit : codec.Fits minMax.isInit.toNat

theorem reads_minMax [Zero D] {codec : Codec D B} {vectSize : Nat} {minMax : MinMax D}
    (sized : minMax.Sized codec vectSize) :
    Reads (readMinMax codec vectSize (initMinMax vectSize)) (saveMinMax codec vectSize minMax)
      minMax := by
  obtain ⟨min, max, minId, maxId, fitsMin, fitsMax, fitsInit⟩ := sized
  have flag : (minMax.isInit.toNat != 0) = minMax.isInit := by cases minMax.isInit <;> rfl
  have value : minMax = { min := minMax.min, max := minMax.max, minId := minMax.minId
                          maxId := minMax.maxId, isInit := minMax.isInit.toNat != 0 } := by
    rw [flag]
  rw [value]
  simp only [saveMinMax, flag, List.append_assoc]
  refine reads_bind (reads_doubles (by simp [initMinMax]) min) ?_
  refine reads_bind (reads_doubles (by simp [initMinMax]) max) ?_
  refine reads_bind (reads_ints (by simp [initMinMax]) minId fitsMin) ?_
  refine reads_bind (reads_ints (by simp [initMinMax]) maxId fitsMax) ?_
  have last := reads_map (fun isInit => MinMax.mk minMax.min minMax.max minMax.minId minMax.maxId
    (isInit != 0)) (reads_int fitsInit (initMinMax (D := D) vectSize).isInit.toNat)
  rwa [flag] at last

end MinMax

section Threshold

/-- The body of the loops of `save_threshold`. -/
def saveThreshold (codec : Codec D B) (vectSize : Nat) (threshold : Threshold D) :
    List (List B) :=
  [fwriteDouble codec threshold.value] ++
  [fwriteInts codec vectSize threshold.thresholdExceedance]

/-- The body of the loops of `read_threshold`. -/
def readThreshold (codec : Codec D B) (vectSize : Nat) (threshold : Threshold D) :
    Reader B (Threshold D) := do
  let value ← freadDouble codec threshold.value
  let thresholdExceedance ← freadInts codec vectSize threshold.thresholdExceedance
  pure { thresholdExceedance := thresholdExceedance, value := value }

structure Threshold.Sized (codec : Codec D B) (vectSize : Nat) (threshold : Threshold D) :
    Prop where
  counters : threshold.thresholdExceedance.length = vectSize
  fits : ∀ count ∈ threshold.thresholdExceedance, codec.Fits count

theorem reads_threshold [Zero D] {codec : Codec D B} {vectSize : Nat} {threshold : Threshold D}
    (sized : threshold.Sized codec vectSize) (value : D) :
    Reads (readThreshold codec vectSize (initThreshold vectSize value))
      (saveThreshold codec vectSize threshold) threshold := by
  refine reads_bind (reads_double threshold.value _) ?_
  exact reads_map _ (reads_ints (by simp [initThreshold]) sized.counters sized.fits)

end Threshold

section Quantile

/-- The body of the loops of `save_quantile`. -/
def saveQuantile (codec : Codec D B) (vectSize : Nat) (quantile : Quantile D) : List (List B) :=
  [fwriteDoubles codec vectSize quantile.quantile] ++ [fwriteInt codec quantile.increment] ++
  [fwriteDouble codec quantile.alpha]

/-- The body of the loops of `read_quantile`. -/
def readQuantile (codec : Codec D B) (vectSize : Nat) (quantile : Quantile D) :
    Reader B (Quantile D) := do
  let values ← freadDoubles codec vectSize quantile.quantile
  let increment ← freadInt codec quantile.increment
  let alpha ← freadDouble codec quantile.alpha
  pure { quantile := values, increment := increment, alpha := alpha }

structure Quantile.Sized (codec : Codec D B) (vectSize : Nat) (quantile : Quantile D) :
    Prop where
  values : quantile.quantile.length = vectSize
  fits : codec.Fits quantile.increment

theorem reads_quantile [Zero D] {codec : Codec D B} {vectSize : Nat} {quantile : Quantile D}
    (sized : quantile.Sized codec vectSize) (alpha : D) :
    Reads (readQuantile codec vectSize (initQuantile vectSize alpha))
      (saveQuantile codec vectSize quantile) quantile := by
  simp only [saveQuantile, List.append_assoc]
  refine reads_bind (reads_doubles (by simp [initQuantile]) sized.values) ?_
  refine reads_bind (reads_int sized.fits _) ?_
  exact reads_map _ (reads_double quantile.alpha _)

end Quantile

section Sobol

/-- `save_mean` for one element. -/
def saveMean (codec : Codec D B) (vectSize : Nat) (mean : Mean D) : List (List B) :=
  [fwriteDoubles codec vectSize mean.mean] ++ [fwriteInt codec mean.increment]

def readMean (codec : Codec D B) (vectSize : Nat) (mean : Mean D) : Reader B (Mean D) := do
  let values ← freadDoubles codec vectSize mean.mean
  let increment ← freadInt codec mean.increment
  pure { mean := values, increment := increment }

/-- `save_variance` for one element. -/
def saveVariance (codec : Codec D B) (vectSize : Nat) (variance : Variance D) : List (List B) :=
  [fwriteDoubles codec vectSize variance.variance] ++
  saveMean codec vectSize variance.meanStructure

def readVariance (codec : Codec D B) (vectSize : Nat) (variance : Variance D) :
    Reader B (Variance D) := do
  let values ← freadDoubles codec vectSize variance.variance
  let meanStructure ← readMean codec vectSize variance.meanStructure
  pure { variance := values, meanStructure := meanStructure }

/-- The body of the loop over the parameters of `save_sobol_martinez`. -/
def saveMartinez (codec : Codec D B) (vectSize : Nat) (martinez : SobolMartinez D) :
    List (List B) :=
  [fwriteDoubles codec vectSize martinez.firstOrderCovariance] ++
  [fwriteDoubles codec vectSize martinez.totalOrderCovariance] ++
  saveVariance codec vectSize martinez.varianceK ++
  [fwriteDoubles codec vectSize martinez.firstOrderValues] ++
  [fwriteDoubles codec vectSize martinez.totalOrderValues] ++
  [fwriteDoubles codec 2 [martinez.confidenceInterval.1, martinez.confidenceInterval.2]]

def readMartinez [Zero D] (codec : Codec D B) (vectSize : Nat) (martinez : SobolMartinez D) :
    Reader B (SobolMartinez D) := do
  let firstOrderCovariance ← freadDoubles codec vectSize martinez.firstOrderCovariance
  let totalOrderCovariance ← freadDoubles codec vectSize martinez.totalOrderCovariance
  let varianceK ← readVariance codec vectSize martinez.varianceK
  let firstOrderValues ← freadDoubles codec vectSize martinez.firstOrderValues
  let totalOrderValues ← freadDoubles codec vectSize martinez.totalOrderValues
  let interval ← freadDoubles codec 2
    [martinez.confidenceInterval.1, martinez.confidenceInterval.2]
  pure { firstOrderCovariance := firstOrderCovariance
         totalOrderCovariance := totalOrderCovariance, varianceK := varianceK
         firstOrderValues := firstOrderValues, totalOrderValues := totalOrderValues
         confidenceInterval := (interval.getD 0 0, interval.getD 1 0) }

/-- The body of the loop over the time steps of `save_sobol_martinez`. -/
def saveSobolMartinez (codec : Codec D B) (vectSize : Nat) (sobolArray : SobolArray D) :
    List (List B) :=
  sobolArray.sobolMartinez.flatMap (saveMartinez codec vectSize) ++
  saveVariance codec vectSize sobolArray.varianceA ++
  saveVariance codec vectSize sobolArray.varianceB ++
  [fwriteInt codec sobolArray.iteration]

def readSobolMartinez [Zero D] (codec : Codec D B) (vectSize : Nat) (sobolArray : SobolArray D) :
    Reader B (SobolArray D) := do
  let sobolMartinez ← sobolArray.sobolMartinez.mapM (readMartinez codec vectSize)
  let varianceA ← readVariance codec vectSize sobolArray.varianceA
  let varianceB ← readVariance codec vectSize sobolArray.varianceB
  let iteration ← freadInt codec sobolArray.iteration
  pure { sobolMartinez := sobolMartinez, varianceA := varianceA, varianceB := varianceB
         iteration := iteration }

structure Variance.Sized (codec : Codec D B) (vectSize : Nat) (variance : Variance D) :
    Prop where
  values : variance.variance.length = vectSize
  mean : variance.meanStructure.mean.length = vectSize
  fits : codec.Fits variance.meanStructure.increment

structure SobolMartinez.Sized (codec : Codec D B) (vectSize : Nat) (martinez : SobolMartinez D) :
    Prop where
  firstCovariance : martinez.firstOrderCovariance.length = vectSize
  totalCovariance : martinez.totalOrderCovariance.length = vectSize
  varianceK : martinez.varianceK.Sized codec vectSize
  firstValues : martinez.firstOrderValues.length = vectSize
  totalValues : martinez.totalOrderValues.length = vectSize

structure SobolArray.Sized (codec : Codec D B) (nbParameters vectSize : Nat)
    (sobolArray : SobolArray D) : Prop where
  parameters : sobolArray.sobolMartinez.length = nbParameters
  martinez : ∀ martinez ∈ sobolArray.sobolMartinez, martinez.Sized codec vectSize
  varianceA : sobolArray.varianceA.Sized codec vectSize
  varianceB : sobolArray.varianceB.Sized codec vectSize
  fits : codec.Fits sobolArray.iteration

variable [Zero D] {codec : Codec D B} {vectSize : Nat}

theorem reads_variance {variance : Variance D} (sized : variance.Sized codec vectSize) :
    Reads (readVariance codec vectSize (initVariance vectSize))
      (saveVariance codec vectSize variance) variance := by
  have mean : Reads (readMean codec vectSize (initMean vectSize))
      (saveMean codec vectSize variance.meanStructure) variance.meanStructure := by
    refine reads_bind (reads_doubles (by simp [initMean]) sized.mean) ?_
    exact reads_map _ (reads_int sized.fits _)
  refine reads_bind (reads_doubles (by simp [initVariance]) sized.values) ?_
  exact reads_map _ mean

theorem reads_martinez {martinez before : SobolMartinez D} (sized : martinez.Sized codec vectSize)
    (firstCovariance : before.firstOrderCovariance.length = vectSize)
    (totalCovariance : before.totalOrderCovariance.length = vectSize)
    (variance : before.varianceK = initVariance vectSize)
    (firstValues : before.firstOrderValues.length = vectSize)
    (totalValues : before.totalOrderValues.length = vectSize) :
    Reads (readMartinez codec vectSize before) (saveMartinez codec vectSize martinez)
      martinez := by
  simp only [saveMartinez, List.append_assoc]
  refine reads_bind (reads_doubles firstCovariance sized.firstCovariance) ?_
  refine reads_bind (reads_doubles totalCovariance sized.totalCovariance) ?_
  refine reads_bind (by rw [variance]; exact reads_variance sized.varianceK) ?_
  refine reads_bind (reads_doubles firstValues sized.firstValues) ?_
  refine reads_bind (reads_doubles totalValues sized.totalValues) ?_
  have interval : Reads
      (freadDoubles codec 2 [before.confidenceInterval.1, before.confidenceInterval.2])
      [fwriteDoubles codec 2 [martinez.confidenceInterval.1, martinez.confidenceInterval.2]]
      [martinez.confidenceInterval.1, martinez.confidenceInterval.2] := reads_doubles rfl rfl
  exact reads_map _ interval

theorem reads_sobol [NatCast D] {nbParameters : Nat} {sobolArray : SobolArray D}
    (sized : sobolArray.Sized codec nbParameters vectSize) :
    Reads (readSobolMartinez codec vectSize (initSobolMartinez nbParameters vectSize))
      (saveSobolMartinez codec vectSize sobolArray) sobolArray := by
  simp only [saveSobolMartinez, List.append_assoc]
  have parameters : Reads
      ((initSobolMartinez (D := D) nbParameters vectSize).sobolMartinez.mapM
        (readMartinez codec vectSize))
      (sobolArray.sobolMartinez.flatMap (saveMartinez codec vectSize))
      (sobolArray.sobolMartinez.map id) := by
    apply reads_mapM
    · simp [initSobolMartinez, sized.parameters]
    · intro before member martinez member'
      rw [List.eq_of_mem_replicate member]
      exact reads_martinez (sized.martinez martinez member') (by simp) (by simp) rfl (by simp)
        (by simp)
  rw [List.map_id] at parameters
  refine reads_bind parameters ?_
  refine reads_bind (reads_variance sized.varianceA) ?_
  refine reads_bind (reads_variance sized.varianceB) ?_
  exact reads_map _ (reads_int sized.fits _)

end Sobol

end Melissa
