import AxiomKernel.Status
import AxiomKernel.Lib.Greedy

/-!
# What the two device decode graphs share

Token and logit words, the target's verification of an eight-row block, and the rows that
finalisation materialises.
-/
namespace AxiomKernel
open Greedy

abbrev Token := UInt32

def kVocab : UInt32 := 248320

/-- `isfinite` on the bits of a 32-bit float: the exponent field is not all ones. -/
def isFinite (bits : UInt32) : Bool := (bits >>> 23) &&& 0xff != 0xff

def verifyTokens (anchor : Token) (draft : Vector Token 7) : Vector Token 8 :=
  (#v[anchor] ++ draft).cast rfl

@[simp] lemma toList_verifyTokens (an : Token) (d : Vector Token 7) :
    (verifyTokens an d).toList = an :: d.toList := by
  rw [verifyTokens, Vector.toList_cast, Vector.toList_append]
  rfl

variable (f : List Token → Token)

def targetVerify (history : List Token) (verify : Vector Token 8) : Vector Token 8 :=
  ⟨(blockRows f history verify.toList).toArray, by simp⟩

@[simp] lemma toList_targetVerify (hi : List Token) (ve : Vector Token 8) :
    (targetVerify f hi ve).toList = blockRows f hi ve.toList := by
  simp [targetVerify, Vector.toList]

/-- Rows that finalisation materialises: none on a failed status or a count outside `[1,8]`. -/
def finalizeRows (committed : Nat) (status : Status) : Nat :=
  if status ≠ .ok ∨ committed = 0 ∨ committed > 8 then 0 else committed

end AxiomKernel
