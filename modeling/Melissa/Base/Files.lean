import Mathlib.Data.List.Basic
import Mathlib.Logic.Function.Basic
import Mathlib.Tactic.Common

/-! Files as lists of bytes: what `fwrite` appends, what `fread` takes from the front, rules for
readers that take back what a writer has appended, and directories changed file by file. -/

namespace Files

section Streams

variable {α B : Type}

/-- `fwrite(array, size, count, f)`: the bytes it appends. -/
def fwrite (encode : α → List B) (count : Nat) (array : List α) : List B :=
  (array.take count).flatMap encode

/-- A function that reads from an open file: the state is what is left of the file. None stands
for a write past the end of an array. -/
abbrev Reader (B α : Type) := StateT (List B) Option α

/-- `fread(array, size, count, f)`. At the end of the file the cells that are left keep their
values. -/
def fread (size : Nat) (decode : List B → α) : Nat → List α → Reader B (List α)
  | 0, array => fun file => some (array, file)
  | count + 1, array => fun file =>
      if file.length < size then some (array, [])
      else match array with
        | [] => none
        | _ :: rest => (fread size decode count rest (file.drop size)).map fun (cells, left) =>
            (decode (file.take size) :: cells, left)

/-- `fread(&variable, size, 1, f)`. -/
def freadOne (size : Nat) (decode : List B → α) (variable' : α) : Reader B α := fun file =>
  if file.length < size then some (variable', [])
  else some (decode (file.take size), file.drop size)

/-- The reader takes back what `chunks` hold as `value`, whatever follows in the file. -/
def Reads (reader : Reader B α) (chunks : List (List B)) (value : α) : Prop :=
  ∀ rest, reader (chunks.flatten ++ rest) = some (value, rest)

/-- The same for a reader that may read on to the end of the file. -/
def ReadsAll (reader : Reader B α) (chunks : List (List B)) (value : α) : Prop :=
  reader chunks.flatten = some (value, [])

theorem Reads.all {reader : Reader B α} {chunks : List (List B)} {value : α}
    (reads : Reads reader chunks value) : ReadsAll reader chunks value := by
  have whole := reads []
  rwa [List.append_nil] at whole

theorem reads_pure (value : α) : Reads (pure value : Reader B α) [] value := fun _ => rfl

variable {β : Type}

theorem reads_bind {first : Reader B α} {next : α → Reader B β} {chunks chunks' : List (List B)}
    {value : α} {value' : β} (reads : Reads first chunks value)
    (reads' : Reads (next value) chunks' value') :
    Reads (first >>= next) (chunks ++ chunks') value' := by
  intro rest
  rw [List.flatten_append, List.append_assoc]
  change (first _).bind (fun pair => next pair.1 pair.2) = _
  rw [reads, Option.bind_some]
  exact reads' rest

theorem readsAll_bind {first : Reader B α} {next : α → Reader B β}
    {chunks chunks' : List (List B)} {value : α} {value' : β} (reads : Reads first chunks value)
    (reads' : ReadsAll (next value) chunks' value') :
    ReadsAll (first >>= next) (chunks ++ chunks') value' := by
  rw [ReadsAll, List.flatten_append]
  change (first _).bind (fun pair => next pair.1 pair.2) = _
  rw [reads, Option.bind_some]
  exact reads'

theorem reads_map {reader : Reader B α} {chunks : List (List B)} {value : α} (f : α → β)
    (reads : Reads reader chunks value) :
    Reads (do let read ← reader; pure (f read)) chunks (f value) := by
  intro rest
  change (reader _).bind (fun pair => some (f pair.1, pair.2)) = _
  rw [reads]
  rfl

theorem readsAll_map {reader : Reader B α} {chunks : List (List B)} {value : α} (f : α → β)
    (reads : ReadsAll reader chunks value) :
    ReadsAll (do let read ← reader; pure (f read)) chunks (f value) := by
  change (reader _).bind (fun pair => some (f pair.1, pair.2)) = _
  rw [reads]
  rfl

/-- A part of the file that is there on a condition. -/
def readIf (condition : Prop) [Decidable condition] (reader : Reader B α) (old : α) :
    Reader B α :=
  if condition then reader else pure old

/-- A part that is written and read on the same condition. -/
theorem reads_if {condition : Prop} [Decidable condition] {reader : Reader B α}
    {chunks : List (List B)} {old value : α}
    (reads : condition → Reads reader chunks value) (same : ¬ condition → old = value) :
    Reads (readIf condition reader old) (if condition then chunks else []) value := by
  unfold readIf
  by_cases here : condition
  · rw [if_pos here, if_pos here]
    exact reads here
  · rw [if_neg here, if_neg here, same here]
    exact reads_pure value

theorem reads_freadOne {size : Nat} {encode : α → List B} {decode : List B → α} {value : α}
    (length : (encode value).length = size) (inverse : decode (encode value) = value) (old : α) :
    Reads (freadOne size decode old) [fwrite encode 1 [value]] value := by
  intro rest
  have bytes : [fwrite encode 1 [value]].flatten = encode value := by simp [fwrite]
  rw [bytes, freadOne, if_neg (by rw [List.length_append]; omega), List.take_left' length,
    List.drop_left' length, inverse]

theorem reads_fread {size count : Nat} {encode : α → List B} {decode : List B → α}
    {values old : List α} (allocated : old.length = count) (number : values.length = count)
    (inverse : ∀ value ∈ values, (encode value).length = size ∧ decode (encode value) = value) :
    Reads (fread size decode count old) [fwrite encode count values] values := by
  induction count generalizing values old with
  | zero =>
      intro rest
      rw [List.eq_nil_of_length_eq_zero allocated, List.eq_nil_of_length_eq_zero number]
      rfl
  | succ count ih =>
      cases values with
      | nil => simp at number
      | cons value values =>
          cases old with
          | nil => simp at allocated
          | cons cell old =>
              obtain ⟨length, back⟩ := inverse value List.mem_cons_self
              have later := @ih values old (by simpa using allocated) (by simpa using number)
                fun other member => inverse other (List.mem_cons_of_mem _ member)
              intro rest
              have bytes : [fwrite encode (count + 1) (value :: values)].flatten ++ rest =
                  encode value ++ ([fwrite encode count values].flatten ++ rest) := by
                simp [fwrite]
              have enough : ¬ (encode value ++
                  ([fwrite encode count values].flatten ++ rest)).length < size := by
                rw [List.length_append]
                omega
              simp only [bytes, fread, if_neg enough, List.take_left' length,
                List.drop_left' length, later rest, back, Option.map_some]

/-- A loop that reads one element of an array after the other. -/
theorem reads_mapM {read : α → Reader B α} {write : β → List (List B)} {value : β → α}
    {old : List α} {saved : List β} (number : old.length = saved.length)
    (reads : ∀ before ∈ old, ∀ item ∈ saved, Reads (read before) (write item) (value item)) :
    Reads (old.mapM read) (saved.flatMap write) (saved.map value) := by
  induction old generalizing saved with
  | nil =>
      rw [List.eq_nil_of_length_eq_zero number.symm]
      exact reads_pure []
  | cons before old ih =>
      cases saved with
      | nil => simp at number
      | cons item saved =>
          have head := reads before List.mem_cons_self item List.mem_cons_self
          have tail := ih (by simpa using number) fun before' member item' member' =>
            reads before' (List.mem_cons_of_mem _ member) item' (List.mem_cons_of_mem _ member')
          rw [List.mapM_cons, List.flatMap_cons, List.map_cons]
          exact reads_bind head (reads_map (fun cells => value item :: cells) tail)

/-- At the end of the file an array keeps its values. -/
theorem fread_end {size : Nat} (positive : 0 < size) (decode : List B → α) (count : Nat)
    (array : List α) : fread size decode count array [] = some (array, []) := by
  cases count with
  | zero => rfl
  | succ count =>
      rw [fread]
      exact if_pos positive

theorem mapM_end {read : α → Reader B α} (unchanged : ∀ item, read item [] = some (item, []))
    (old : List α) : (old.mapM read : Reader B (List α)) [] = some (old, []) := by
  induction old with
  | nil => rfl
  | cons item old ih =>
      rw [List.mapM_cons]
      change (read item []).bind (fun pair => (old.mapM read pair.2).bind fun rest =>
        some (pair.1 :: rest.1, rest.2)) = _
      rw [unchanged, Option.bind_some, ih]
      rfl

/-- A loop over the elements of an array of which the file holds only the first ones. -/
theorem readsAll_mapM_front {read : α → Reader B α} {write : β → List (List B)} {value : β → α}
    {old : List α} {saved : List β} (room : saved.length ≤ old.length)
    (reads : ∀ before ∈ old, ∀ item ∈ saved, Reads (read before) (write item) (value item))
    (unchanged : ∀ item, read item [] = some (item, [])) :
    ReadsAll (old.mapM read) (saved.flatMap write)
      (saved.map value ++ old.drop saved.length) := by
  induction saved generalizing old with
  | nil => exact mapM_end unchanged old
  | cons item saved ih =>
      cases old with
      | nil => simp at room
      | cons before old =>
          have head := reads before List.mem_cons_self item List.mem_cons_self
          have tail := @ih old (by simpa using room) fun before' member item' member' =>
            reads before' (List.mem_cons_of_mem _ member) item' (List.mem_cons_of_mem _ member')
          rw [List.mapM_cons]
          exact readsAll_bind head (readsAll_map (fun cells => value item :: cells) tail)

end Streams

section Directories

variable {B : Type}

/-- The files of a directory. -/
abbrev Disk (B : Type) := String → Option (List B)

/-- `fopen(name, "wb+")` and one `fwrite`. -/
inductive FileOp (B : Type) where
  | truncate (name : String)
  | append (name : String) (bytes : List B)
  deriving DecidableEq, Repr

def applyOp (disk : Disk B) : FileOp B → Disk B
  | .truncate name => Function.update disk name (some [])
  | .append name bytes => Function.update disk name ((disk name).map fun file => file ++ bytes)

def applyOps (disk : Disk B) (ops : List (FileOp B)) : Disk B := ops.foldl applyOp disk

/-- A file opened for writing, written in chunks and closed. -/
def writeFile (file : String × List (List B)) : List (FileOp B) :=
  .truncate file.1 :: file.2.map (.append file.1)

theorem applyOps_append (disk : Disk B) (ops ops' : List (FileOp B)) :
    applyOps disk (ops ++ ops') = applyOps (applyOps disk ops) ops' :=
  List.foldl_append

private theorem applyOps_chunks (disk : Disk B) (name : String) (bytes : List B)
    (here : disk name = some bytes) (chunks : List (List B)) :
    applyOps disk (chunks.map (.append name)) =
      Function.update disk name (some (bytes ++ chunks.flatten)) := by
  induction chunks generalizing disk bytes with
  | nil =>
      rw [List.flatten_nil, List.append_nil, ← here, Function.update_eq_self]
      rfl
  | cons chunk chunks ih =>
      have next : applyOp disk (.append name chunk) =
          Function.update disk name (some (bytes ++ chunk)) := by
        rw [applyOp, here, Option.map_some]
      change applyOps (applyOp disk (.append name chunk)) (chunks.map (.append name)) = _
      rw [next, ih _ (bytes ++ chunk) (Function.update_self ..), Function.update_idem,
        List.flatten_cons, List.append_assoc]

theorem applyOps_writeFile (disk : Disk B) (file : String × List (List B)) :
    applyOps disk (writeFile file) = Function.update disk file.1 (some file.2.flatten) := by
  have created : applyOp disk (.truncate file.1) = Function.update disk file.1 (some []) := rfl
  change applyOps (applyOp disk (.truncate file.1)) (file.2.map (.append file.1)) = _
  rw [created, applyOps_chunks _ _ [] (Function.update_self ..), Function.update_idem,
    List.nil_append]

/-- Several files written one after the other: the others are as before. -/
theorem applyOps_files_other {disk : Disk B} {files : List (String × List (List B))}
    {name : String} (other : name ∉ files.map Prod.fst) :
    applyOps disk (files.flatMap writeFile) name = disk name := by
  induction files generalizing disk with
  | nil => rfl
  | cons file files ih =>
      rw [List.map_cons, List.mem_cons, not_or] at other
      rw [List.flatMap_cons, applyOps_append, applyOps_writeFile, ih other.2,
        Function.update_of_ne other.1]

theorem applyOps_files_mem {disk : Disk B} {files : List (String × List (List B))}
    (distinct : (files.map Prod.fst).Nodup) {file : String × List (List B)}
    (member : file ∈ files) :
    applyOps disk (files.flatMap writeFile) file.1 = some file.2.flatten := by
  induction files generalizing disk with
  | nil => cases member
  | cons first files ih =>
      rw [List.map_cons, List.nodup_cons] at distinct
      rw [List.flatMap_cons, applyOps_append, applyOps_writeFile]
      rcases List.mem_cons.mp member with rfl | later
      · rw [applyOps_files_other distinct.1, Function.update_self]
      · exact ih distinct.2 later

def FileOp.name : FileOp B → String
  | .truncate name => name
  | .append name _ => name

theorem applyOps_other {disk : Disk B} {ops : List (FileOp B)} {name : String}
    (other : ∀ op ∈ ops, op.name ≠ name) : applyOps disk ops name = disk name := by
  induction ops generalizing disk with
  | nil => rfl
  | cons op ops ih =>
      rw [List.forall_mem_cons] at other
      have here : applyOp disk op name = disk name := by
        cases op with
        | truncate name' => exact Function.update_of_ne (Ne.symm other.1) _ _
        | append name' bytes => exact Function.update_of_ne (Ne.symm other.1) _ _
      exact (ih other.2).trans here

theorem name_of_mem_writeFile {file : String × List (List B)} {op : FileOp B}
    (member : op ∈ writeFile file) : op.name = file.1 := by
  rcases List.mem_cons.mp member with rfl | chunk
  · rfl
  · obtain ⟨bytes, _, rfl⟩ := List.mem_map.mp chunk
    rfl

/-- The file that is cut off when only the first `k` operations have taken place: it has been
truncated, and not yet written to its end. -/
def cutFile : List (String × List (List B)) → Nat → Option String
  | [], _ => none
  | file :: files, k =>
      if k = 0 then none
      else if k < (writeFile file).length then some file.1
      else cutFile files (k - (writeFile file).length)

/-- Such a prefix writes some files completely, and no other one or a part of the next one. -/
theorem take_files (files : List (String × List (List B))) (k : Nat) :
    ∃ written left, files = written ++ left ∧
      ((cutFile files k = none ∧
          (files.flatMap writeFile).take k = written.flatMap writeFile) ∨
        ∃ file rest j, left = file :: rest ∧ cutFile files k = some file.1 ∧
          (files.flatMap writeFile).take k =
            written.flatMap writeFile ++ (writeFile file).take j) := by
  induction files generalizing k with
  | nil => exact ⟨[], [], rfl, Or.inl ⟨rfl, by simp⟩⟩
  | cons file files ih =>
      rw [List.flatMap_cons, cutFile]
      by_cases start : k = 0
      · exact ⟨[], file :: files, rfl, Or.inl ⟨by rw [if_pos start], by simp [start]⟩⟩
      · by_cases inside : k < (writeFile file).length
        · refine ⟨[], file :: files, rfl, Or.inr ⟨file, files, k, rfl, ?_, ?_⟩⟩
          · rw [if_neg start, if_pos inside]
          · rw [List.take_append_of_le_length (Nat.le_of_lt inside)]
            rfl
        · have whole : (writeFile file ++ files.flatMap writeFile).take k = writeFile file ++
              (files.flatMap writeFile).take (k - (writeFile file).length) := by
            rw [List.take_append, List.take_of_length_le (by omega)]
          rw [if_neg start, if_neg inside, whole]
          obtain ⟨written, left, rfl, cases⟩ := ih (k - (writeFile file).length)
          refine ⟨file :: written, left, rfl, ?_⟩
          rcases cases with ⟨uncut, prefix'⟩ | ⟨file', rest, j, here, cut, prefix'⟩
          · exact Or.inl ⟨uncut, by rw [prefix', List.flatMap_cons]⟩
          · exact Or.inr ⟨file', rest, j, here, cut, by
              rw [prefix', List.flatMap_cons, List.append_assoc]⟩

theorem applyOps_files_cases (disk : Disk B) (files : List (String × List (List B)))
    (name : String) :
    applyOps disk (files.flatMap writeFile) name = disk name ∨
      ∃ file ∈ files, file.1 = name ∧
        applyOps disk (files.flatMap writeFile) name = some file.2.flatten := by
  induction files generalizing disk with
  | nil => exact Or.inl rfl
  | cons file files ih =>
      rw [List.flatMap_cons, applyOps_append, applyOps_writeFile]
      rcases ih (Function.update disk file.1 (some file.2.flatten)) with same |
        ⟨file', member, named, here⟩
      · by_cases own : file.1 = name
        · subst own
          exact Or.inr ⟨file, List.mem_cons_self, rfl, by rw [same, Function.update_self]⟩
        · exact Or.inl (by rw [same, Function.update_of_ne (Ne.symm own)])
      · exact Or.inr ⟨file', List.mem_cons_of_mem _ member, named, here⟩

/-- A file that is not cut off is as before or one of those to be written. -/
theorem applyOps_take_files (disk : Disk B) {files : List (String × List (List B))} {name : String}
    {k : Nat} (uncut : cutFile files k ≠ some name) :
    applyOps disk ((files.flatMap writeFile).take k) name = disk name ∨
      ∃ file ∈ files, file.1 = name ∧
        applyOps disk ((files.flatMap writeFile).take k) name = some file.2.flatten := by
  obtain ⟨written, left, rfl, cases⟩ := take_files files k
  have part : applyOps disk (((written ++ left).flatMap writeFile).take k) name =
      applyOps disk (written.flatMap writeFile) name := by
    rcases cases with ⟨_, prefix'⟩ | ⟨file, rest, j, rfl, cut, prefix'⟩
    · rw [prefix']
    · have other : file.1 ≠ name := fun same => uncut (by rw [cut, same])
      rw [prefix', applyOps_append]
      apply applyOps_other
      intro op member
      rw [name_of_mem_writeFile (List.mem_of_mem_take member)]
      exact other
  rw [part]
  rcases applyOps_files_cases disk written name with same | ⟨file, member, here⟩
  · exact Or.inl same
  · exact Or.inr ⟨file, List.mem_append_left _ member, here⟩

/-- The last file has not been touched, or all others are complete and it has been written up to
some chunk. -/
theorem take_files_concat (files : List (String × List (List B)))
    (last : String × List (List B)) (k : Nat) :
    ((files ++ [last]).flatMap writeFile).take k = (files.flatMap writeFile).take k ∨
      ∃ j, ((files ++ [last]).flatMap writeFile).take k =
        files.flatMap writeFile ++ writeFile (last.1, last.2.take j) := by
  rw [List.flatMap_append, List.flatMap_singleton]
  by_cases early : k ≤ (files.flatMap writeFile).length
  · exact Or.inl (List.take_append_of_le_length early)
  · obtain ⟨j, rfl⟩ := Nat.exists_eq_add_of_lt (Nat.lt_of_not_le early)
    refine Or.inr ⟨j, ?_⟩
    rw [Nat.add_assoc, List.take_length_add_append, writeFile, List.take_succ_cons, writeFile,
      List.map_take]

end Directories

end Files
