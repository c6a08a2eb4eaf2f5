import Melissa.Base.Files
import Melissa.Bits
import Mathlib.Tactic.Ring

/-! How `int`, `uint32_t` and `double` look in a checkpoint file. -/

namespace Melissa

open Files

/-- The bytes of the three types. No negative `int` is ever saved; `Fits` holds for the numbers
an `int` can hold. -/
structure Codec (D B : Type) where
  Fits : Nat → Prop
  int : Nat → List B
  intOf : List B → Nat
  word : Word → List B
  wordOf : List B → Word
  double : D → List B
  doubleOf : List B → D
  int_length : ∀ n, (int n).length = 4
  intOf_int : ∀ n, Fits n → intOf (int n) = n
  word_length : ∀ w, (word w).length = 4
  wordOf_word : ∀ w, wordOf (word w) = w
  double_length : ∀ d, (double d).length = 8
  doubleOf_double : ∀ d, doubleOf (double d) = d

section Machine

/-- The `size` bytes of a number, the least significant one first. -/
def littleEndian (size n : Nat) : List (BitVec 8) :=
  match size with
  | 0 => []
  | size + 1 => BitVec.ofNat 8 n :: littleEndian size (n / 256)

def littleEndianOf : List (BitVec 8) → Nat
  | [] => 0
  | byte :: rest => byte.toNat + 256 * littleEndianOf rest

theorem littleEndian_length (size n : Nat) : (littleEndian size n).length = size := by
  induction size generalizing n with
  | zero => rfl
  | succ size ih => rw [littleEndian, List.length_cons, ih]

theorem littleEndianOf_littleEndian {size n : Nat} (small : n < 256 ^ size) :
    littleEndianOf (littleEndian size n) = n := by
  induction size generalizing n with
  | zero =>
      rw [Nat.pow_zero] at small
      rw [littleEndian, littleEndianOf]
      omega
  | succ size ih =>
      have smaller : n / 256 < 256 ^ size := by
        rw [Nat.pow_succ] at small
        exact Nat.div_lt_of_lt_mul (by rw [Nat.mul_comm]; exact small)
      rw [littleEndian, littleEndianOf, ih smaller, BitVec.toNat_ofNat]
      exact Nat.mod_add_div n 256

/-- Little-endian bytes; a `double` is its bit pattern. -/
def machineCodec : Codec (BitVec 64) (BitVec 8) where
  Fits n := n < 2 ^ 31
  int n := littleEndian 4 n
  intOf bytes := littleEndianOf bytes
  word w := littleEndian 4 w.toNat
  wordOf bytes := BitVec.ofNat 32 (littleEndianOf bytes)
  double d := littleEndian 8 d.toNat
  doubleOf bytes := BitVec.ofNat 64 (littleEndianOf bytes)
  int_length := littleEndian_length 4
  intOf_int n fits := littleEndianOf_littleEndian (by omega)
  word_length w := littleEndian_length 4 w.toNat
  wordOf_word w := by
    rw [littleEndianOf_littleEndian (by have := w.isLt; omega), BitVec.ofNat_toNat,
      BitVec.setWidth_eq]
  double_length d := littleEndian_length 8 d.toNat
  doubleOf_double d := by
    rw [littleEndianOf_littleEndian (by have := d.isLt; omega), BitVec.ofNat_toNat,
      BitVec.setWidth_eq]

instance (n : Nat) : Decidable (machineCodec.Fits n) := inferInstanceAs (Decidable (n < 2 ^ 31))

end Machine

section Exact

/-- A byte of a file that holds exact numbers: the first byte of a value carries the value. -/
inductive Cell (D : Type) where
  | int (n : Nat)
  | word (w : Word)
  | double (d : D)
  | rest
  deriving DecidableEq, Repr

/-- The files of exact arithmetic: the sizes are those of the types, the values have no bound. -/
def exactCodec (D : Type) [Zero D] : Codec D (Cell D) where
  Fits _ := True
  int n := .int n :: List.replicate 3 .rest
  intOf
    | .int n :: _ => n
    | _ => 0
  word w := .word w :: List.replicate 3 .rest
  wordOf
    | .word w :: _ => w
    | _ => 0#32
  double d := .double d :: List.replicate 7 .rest
  doubleOf
    | .double d :: _ => d
    | _ => 0
  int_length _ := rfl
  intOf_int _ _ := rfl
  word_length _ := rfl
  wordOf_word _ := rfl
  double_length _ := rfl
  doubleOf_double _ := rfl

end Exact

section Values

variable {D B : Type} (codec : Codec D B)

def fwriteInt (n : Nat) : List B := fwrite codec.int 1 [n]

def fwriteDouble (d : D) : List B := fwrite codec.double 1 [d]

def fwriteInts (count : Nat) (array : List Nat) : List B := fwrite codec.int count array

def fwriteWords (count : Nat) (array : List Word) : List B := fwrite codec.word count array

def fwriteDoubles (count : Nat) (array : List D) : List B := fwrite codec.double count array

def freadInt (old : Nat) : Reader B Nat := freadOne 4 codec.intOf old

def freadDouble (old : D) : Reader B D := freadOne 8 codec.doubleOf old

def freadInts (count : Nat) (old : List Nat) : Reader B (List Nat) :=
  fread 4 codec.intOf count old

def freadWords (count : Nat) (old : List Word) : Reader B (List Word) :=
  fread 4 codec.wordOf count old

def freadDoubles (count : Nat) (old : List D) : Reader B (List D) :=
  fread 8 codec.doubleOf count old

variable {codec}

theorem reads_int {n : Nat} (fits : codec.Fits n) (old : Nat) :
    Reads (freadInt codec old) [fwriteInt codec n] n :=
  reads_freadOne (codec.int_length n) (codec.intOf_int n fits) old

theorem reads_double (d old : D) : Reads (freadDouble codec old) [fwriteDouble codec d] d :=
  reads_freadOne (codec.double_length d) (codec.doubleOf_double d) old

theorem reads_ints {count : Nat} {array old : List Nat} (allocated : old.length = count)
    (number : array.length = count) (fits : ∀ n ∈ array, codec.Fits n) :
    Reads (freadInts codec count old) [fwriteInts codec count array] array :=
  reads_fread allocated number fun n member =>
    ⟨codec.int_length n, codec.intOf_int n (fits n member)⟩

theorem reads_words {count : Nat} {array old : List Word} (allocated : old.length = count)
    (number : array.length = count) :
    Reads (freadWords codec count old) [fwriteWords codec count array] array :=
  reads_fread allocated number fun w _ => ⟨codec.word_length w, codec.wordOf_word w⟩

theorem reads_doubles {count : Nat} {array old : List D} (allocated : old.length = count)
    (number : array.length = count) :
    Reads (freadDoubles codec count old) [fwriteDoubles codec count array] array :=
  reads_fread allocated number fun d _ => ⟨codec.double_length d, codec.doubleOf_double d⟩

end Values

end Melissa
