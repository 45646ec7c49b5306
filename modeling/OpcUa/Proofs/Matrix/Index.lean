import Mathlib.Data.List.Forall2
import OpcUa.Proofs.Variant.Dimensions

/-!
Indexes of a matrix and their places. An index in range has one entry for each dimension, and its
place is the number of elements in front of it in row-major order: every entry counts for as many
elements as the dimensions behind its own span. The places of the indexes in range are the numbers
below the element count, each the place of one index, and they grow in dictionary order. The offset
that is formed while the entries are checked one after another is the place.
-/

namespace OpcUa.Matrix

/-- One entry for each dimension, from zero to below the dimension. -/
def InRange (sizes index : List Int32) : Prop :=
  List.Forall₂ (fun size entry => 0 ≤ entry.toInt ∧ entry.toInt < size.toInt) sizes index

/-- The number of elements that lie in some dimensions. -/
def span (sizes : List Int32) : Nat := (sizeProduct sizes).toNat

def place : List Int32 → List Int32 → Nat
  | _ :: sizes, entry :: index => entry.toInt.toNat * span sizes + place sizes index
  | _, _ => 0

/-- Dictionary order, each entry taken as a number. -/
def Precedes (index other : List Int32) : Prop :=
  List.Lex (fun entry following => entry.toInt < following.toInt) index other

variable {sizes index other : List Int32}

theorem InRange.positive (inside : InRange sizes index) : AllPositive sizes := by
  induction inside with
  | nil => exact fun _ member => nomatch member
  | cons entry _ ih => exact List.forall_mem_cons.mpr ⟨Int.lt_of_le_of_lt entry.1 entry.2, ih⟩

theorem InRange.length_eq (inside : InRange sizes index) : index.length = sizes.length :=
  (List.Forall₂.length_eq inside).symm

end OpcUa.Matrix
